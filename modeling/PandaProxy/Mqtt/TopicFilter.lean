import PandaProxy.Python.Str

namespace PandaProxy.Mqtt

open Python

-- The loop of `topic_matches` from `filter_levels[i]` on.
def matchLevels (filterLevels topicLevels : List String) (i : Nat) : List String → Bool
  | [] => filterLevels.length == topicLevels.length
  | level :: rest =>
      if level = "#" then i == filterLevels.length - 1
      else if i ≥ topicLevels.length then false
      else if level ≠ "+" ∧ some level ≠ topicLevels[i]? then false
      else matchLevels filterLevels topicLevels (i + 1) rest

def topicMatches (topicFilter topic : String) : Bool :=
  if topicFilter = topic then true
  else
    let filterLevels := Str.split '/' topicFilter
    let topicLevels := Str.split '/' topic
    matchLevels filterLevels topicLevels 0 filterLevels

inductive LevelsMatch : List String → List String → Prop where
  | done : LevelsMatch [] []
  | single (level : String) {filter levels : List String} (h : LevelsMatch filter levels) :
      LevelsMatch ("+" :: filter) (level :: levels)
  | literal {level : String} {filter levels : List String} (hsingle : level ≠ "+") (hmulti : level ≠ "#")
      (h : LevelsMatch filter levels) : LevelsMatch (level :: filter) (level :: levels)
  | multi (levels : List String) : LevelsMatch ["#"] levels

section

variable {level name : String} {filter levels filterLevels topicLevels : List String} {i : Nat}

theorem levelsMatch_multi : LevelsMatch ("#" :: filter) levels ↔ filter = [] := by
  constructor
  · intro h
    generalize hlevel : "#" = level at h
    cases h with
    | single _ _ => exact absurd hlevel (by decide)
    | literal _ hmulti _ => exact absurd hlevel.symm hmulti
    | multi _ => rfl
  · rintro rfl
    exact .multi levels

theorem levelsMatch_cons (hmulti : level ≠ "#") :
    LevelsMatch (level :: filter) (name :: levels) ↔ (level = "+" ∨ level = name) ∧ LevelsMatch filter levels := by
  constructor
  · intro h
    cases h with
    | single _ h => exact ⟨.inl rfl, h⟩
    | literal _ _ h => exact ⟨.inr rfl, h⟩
    | multi _ => exact absurd rfl hmulti
  · rintro ⟨rfl | rfl, h⟩
    · exact .single name h
    · by_cases hsingle : level = "+"
      · subst hsingle
        exact .single _ h
      · exact .literal hsingle hmulti h

theorem levelsMatch_over (hmulti : level ≠ "#") : ¬ LevelsMatch (level :: filter) [] := by
  intro h
  cases h with
  | multi _ => exact hmulti rfl

theorem levelsMatch_self (h : ∀ level ∈ levels, level ≠ "+" ∧ level ≠ "#") : LevelsMatch levels levels := by
  induction levels with
  | nil => exact .done
  | cons level levels ih =>
      obtain ⟨hsingle, hmulti⟩ := h level List.mem_cons_self
      exact .literal hsingle hmulti (ih fun l hl => h l (List.mem_cons_of_mem _ hl))

theorem matchLevels_iff (hlength : filterLevels.length = i + filter.length) (hi : i ≤ topicLevels.length) :
    matchLevels filterLevels topicLevels i filter = true ↔ LevelsMatch filter (topicLevels.drop i) := by
  induction filter generalizing i with
  | nil =>
      simp only [matchLevels, beq_iff_eq, hlength, List.length_nil, Nat.add_zero]
      constructor
      · intro hend
        rw [hend, List.drop_length]
        exact .done
      · intro h
        have hend : topicLevels.drop i = [] := by
          generalize topicLevels.drop i = rest at h
          cases h
          rfl
        exact Nat.le_antisymm hi (List.drop_eq_nil_iff.mp hend)
  | cons level filter ih =>
      rw [List.length_cons] at hlength
      unfold matchLevels
      by_cases hmulti : level = "#"
      · subst hmulti
        rw [if_pos rfl, beq_iff_eq, levelsMatch_multi, ← List.length_eq_zero_iff]
        omega
      · rw [if_neg hmulti]
        by_cases hover : i ≥ topicLevels.length
        · rw [if_pos hover, List.drop_eq_nil_of_le hover]
          exact ⟨nofun, fun h => absurd h (levelsMatch_over hmulti)⟩
        · have hlt := Nat.not_le.mp hover
          rw [if_neg hover, List.drop_eq_getElem_cons hlt, levelsMatch_cons hmulti, List.getElem?_eq_getElem hlt,
            ← ih (by omega) hlt]
          by_cases hlevel : level = "+" ∨ level = topicLevels[i]
          · rw [if_neg (by simpa using hlevel.resolve_left)]
            exact (and_iff_right hlevel).symm
          · rw [if_pos (by simpa [not_or] using hlevel)]
            exact ⟨nofun, fun h => absurd h.1 hlevel⟩

end

theorem literal_levels {topic : String} (h : ∀ c ∈ topic.toList, c ≠ '+' ∧ c ≠ '#') :
    ∀ level ∈ Str.split '/' topic, level ≠ "+" ∧ level ≠ "#" := by
  intro level hlevel
  obtain ⟨chars, hchars, rfl⟩ := List.mem_map.mp hlevel
  have hnot : ∀ c : Char, (c = '+' ∨ c = '#') → String.ofList chars ≠ String.singleton c := by
    intro c hc heq
    have hmem : c ∈ topic.toList := by
      refine Chars.mem_of_mem_splitOn hchars ?_
      have hlist := congrArg String.toList heq
      simp only [String.toList_ofList, String.toList_singleton] at hlist
      simp [hlist]
    exact hc.elim (h c hmem).1 (h c hmem).2
  exact ⟨hnot '+' (.inl rfl), hnot '#' (.inr rfl)⟩

-- Nothing is asked of the filter: one that is not valid matches what the rule gives for it.
theorem topic_matches_iff (topicFilter : String) {topic : String} (h : ∀ c ∈ topic.toList, c ≠ '+' ∧ c ≠ '#') :
    topicMatches topicFilter topic = true ↔ LevelsMatch (Str.split '/' topicFilter) (Str.split '/' topic) := by
  unfold topicMatches
  split
  · next heq =>
      subst heq
      exact iff_of_true rfl (levelsMatch_self (literal_levels h))
  · exact matchLevels_iff (Nat.zero_add _).symm (Nat.zero_le _)

theorem topic_matches_iff_parent : topicMatches "a/b/#" "a/b" = true ∧
    LevelsMatch (Str.split '/' "a/b/#") (Str.split '/' "a/b") := by
  have hmatches : topicMatches "a/b/#" "a/b" = true := by
    decide
  have hliteral : ("a/b".toList.all fun c => c ≠ '+' ∧ c ≠ '#') = true := by
    decide
  exact ⟨hmatches, (topic_matches_iff "a/b/#" fun c hc => by simpa using List.all_eq_true.mp hliteral c hc).mp hmatches⟩

end PandaProxy.Mqtt
