import PandaProxy.Python.Str

namespace PandaProxy.Python

abbrev Component := List Char

-- `posixpath`, on the characters of a path.
namespace PosixPath

def isAbs : List Char → Bool
  | '/' :: _ => true
  | _ => false

def endsWithSep (p : List Char) : Bool := p.getLast? == some '/'

def join (a b : List Char) : List Char :=
  if isAbs b || a.isEmpty then b
  else if endsWithSep a then a ++ b
  else a ++ '/' :: b

def splitroot : List Char → List Char × List Char
  | '/' :: '/' :: '/' :: rest => (['/'], '/' :: '/' :: rest)
  | '/' :: '/' :: rest => (['/', '/'], rest)
  | '/' :: rest => (['/'], rest)
  | p => ([], p)

def normLoop (rooted : Bool) (comps : List Component) : Component → List Component
  | [] => comps
  | ['.'] => comps
  | ['.', '.'] =>
      if (!rooted && comps.isEmpty) || comps.getLast? == some ['.', '.'] then comps ++ [['.', '.']]
      else comps.dropLast
  | c => comps ++ [c]

def normpath (p : List Char) : List Char :=
  let (root, tail) := splitroot p
  let comps := (tail.splitOn '/').foldl (normLoop (!root.isEmpty)) []
  let path := root ++ ['/'].intercalate comps
  if path.isEmpty then ['.'] else path

-- What a path means to a file system whose root is the empty stack.
def walk (stack : List Component) : Component → List Component
  | [] => stack
  | ['.'] => stack
  | ['.', '.'] => stack.dropLast
  | c => stack ++ [c]

def resolve (stack : List Component) (p : List Char) : List Component :=
  (p.splitOn '/').foldl walk (if isAbs p then [] else stack)

def components (p : List Char) : List Component := (p.splitOn '/').filter (fun c => !c.isEmpty)

def Plain (c : Component) : Prop := c ≠ [] ∧ c ≠ ['.'] ∧ c ≠ ['.', '.'] ∧ '/' ∉ c

theorem walk_plain {c : Component} (h : Plain c) (stack : List Component) :
    walk stack c = stack ++ [c] := by
  obtain ⟨h1, h2, h3, _⟩ := h
  unfold walk
  split
  · exact absurd rfl h1
  · exact absurd rfl h2
  · exact absurd rfl h3
  · rfl

theorem foldl_walk_plain {cs : List Component} (h : ∀ c ∈ cs, Plain c) (stack : List Component) :
    cs.foldl walk stack = stack ++ cs := by
  induction cs generalizing stack with
  | nil => simp
  | cons c cs ih =>
      rw [List.foldl_cons, walk_plain (h c (by simp)), ih (fun d hd => h d (by simp [hd]))]
      simp

theorem walk_nil (stack : List Component) : walk stack [] = stack := rfl

theorem foldl_walk_filter (cs : List Component) (stack : List Component) :
    (cs.filter (fun c => !c.isEmpty)).foldl walk stack = cs.foldl walk stack := by
  induction cs generalizing stack with
  | nil => rfl
  | cons c cs ih =>
      cases c with
      | nil => exact ih stack
      | cons a c => exact ih _

theorem mem_walk {stack : List Component} {c : Component} (hs : ∀ d ∈ stack, Plain d)
    (hc : '/' ∉ c) : ∀ d ∈ walk stack c, Plain d := by
  unfold walk
  split
  · exact hs
  · exact hs
  · exact fun d hd => hs d (List.dropLast_subset stack hd)
  · next h1 h2 h3 =>
      intro d hd
      rcases List.mem_append.mp hd with hd | hd
      · exact hs d hd
      · rw [List.mem_singleton.mp hd]
        exact ⟨h1, h2, h3, hc⟩

theorem mem_foldl_walk {cs : List Component} (hcs : ∀ c ∈ cs, '/' ∉ c) {stack : List Component}
    (hs : ∀ d ∈ stack, Plain d) : ∀ d ∈ cs.foldl walk stack, Plain d := by
  induction cs generalizing stack with
  | nil => exact hs
  | cons c cs ih =>
      exact ih (fun d hd => hcs d (by simp [hd])) (mem_walk hs (hcs c (by simp)))

theorem notMem_of_mem_splitOn {p : List Char} {sep : Char} : ∀ c ∈ p.splitOn sep, sep ∉ c := by
  induction p with
  | nil => simp
  | cons a p ih =>
      rw [List.splitOn_cons_eq_if_modifyHead]
      split
      · intro c hc
        rcases List.mem_cons.mp hc with rfl | hc
        · simp
        · exact ih c hc
      · next ha =>
          have hne : sep ≠ a := by
            intro he
            simp [he] at ha
          cases hp : p.splitOn sep with
          | nil => exact absurd hp (List.splitOn_ne_nil sep p)
          | cons d ds =>
              rw [hp] at ih
              intro c hc
              simp only [List.modifyHead_cons] at hc
              rcases List.mem_cons.mp hc with rfl | hc
              · simp [hne, ih d (by simp)]
              · exact ih c (by simp [hc])

theorem resolve_plain {stack : List Component} (hs : ∀ d ∈ stack, Plain d) (p : List Char) :
    ∀ d ∈ resolve stack p, Plain d := by
  refine mem_foldl_walk notMem_of_mem_splitOn ?_
  split
  · simp
  · exact hs

-- With a root there is nothing above it, so no `..` ever enters the list.
theorem normLoop_rooted {stack : List Component} (hs : ∀ d ∈ stack, Plain d) (c : Component) :
    normLoop true stack c = walk stack c := by
  have hlast : (stack.getLast? == some ['.', '.']) = false := by
    rw [beq_eq_false_iff_ne]
    intro h
    exact (hs _ (List.mem_of_getLast? h)).2.2.1 rfl
  unfold normLoop walk
  split <;> simp [hlast]

theorem foldl_normLoop {cs : List Component} (hcs : ∀ c ∈ cs, '/' ∉ c) {stack : List Component}
    (hs : ∀ d ∈ stack, Plain d) : cs.foldl (normLoop true) stack = cs.foldl walk stack := by
  induction cs generalizing stack with
  | nil => rfl
  | cons c cs ih =>
      rw [List.foldl_cons, List.foldl_cons, normLoop_rooted hs]
      exact ih (fun d hd => hcs d (by simp [hd])) (mem_walk hs (hcs c (by simp)))

theorem splitOn_sep (p : List Char) : ('/' :: p).splitOn '/' = [] :: p.splitOn '/' := by
  rw [List.splitOn_cons_eq_if_modifyHead]
  simp

theorem foldl_splitOn_sep (p : List Char) (stack : List Component) :
    (('/' :: p).splitOn '/').foldl walk stack = (p.splitOn '/').foldl walk stack := by
  rw [splitOn_sep, List.foldl_cons, walk_nil]

theorem splitroot_abs {p : List Char} (h : isAbs p = true) :
    ∃ root tail, splitroot p = (root, tail) ∧ (root = ['/'] ∨ root = ['/', '/']) ∧
      (p.splitOn '/').foldl walk [] = (tail.splitOn '/').foldl walk [] := by
  unfold splitroot
  split
  · exact ⟨_, _, rfl, .inl rfl, foldl_splitOn_sep _ _⟩
  · refine ⟨_, _, rfl, .inr rfl, ?_⟩
    rw [foldl_splitOn_sep, foldl_splitOn_sep]
  · exact ⟨_, _, rfl, .inl rfl, foldl_splitOn_sep _ _⟩
  · next h1 h2 h3 =>
      cases p with
      | nil => simp [isAbs] at h
      | cons a p =>
          by_cases ha : a = '/'
          · subst ha
            exact absurd rfl (h3 p)
          · unfold isAbs at h
            split at h
            · next he => exact absurd (List.cons.inj he).1 ha
            · cases h

theorem components_sep (p : List Char) : components ('/' :: p) = components p := by
  simp only [components, splitOn_sep]
  rfl

theorem filter_plain {cs : List Component} (h : ∀ c ∈ cs, Plain c) :
    cs.filter (fun c => !c.isEmpty) = cs := by
  refine List.filter_eq_self.mpr (fun c hc => ?_)
  simpa using (h c hc).1

theorem components_intercalate {cs : List Component} (h : ∀ c ∈ cs, Plain c) :
    components (['/'].intercalate cs) = cs := by
  cases cs with
  | nil => rfl
  | cons c cs =>
      rw [components, List.splitOn_intercalate '/' (fun d hd => (h d hd).2.2.2) (by simp)]
      exact filter_plain h

theorem components_root {root : List Char} (h : root = ['/'] ∨ root = ['/', '/']) (p : List Char) :
    components (root ++ p) = components p := by
  rcases h with rfl | rfl
  · exact components_sep p
  · exact (components_sep ('/' :: p)).trans (components_sep p)

theorem normpath_abs {p : List Char} (h : isAbs p = true) :
    isAbs (normpath p) = true ∧ components (normpath p) = resolve [] p := by
  obtain ⟨root, tail, hroot, hr, hp⟩ := splitroot_abs h
  have hcs : (tail.splitOn '/').foldl (normLoop true) [] = (tail.splitOn '/').foldl walk [] :=
    foldl_normLoop notMem_of_mem_splitOn (by simp)
  have hplain : ∀ d ∈ (tail.splitOn '/').foldl walk [], Plain d :=
    mem_foldl_walk notMem_of_mem_splitOn (by simp)
  have hroot' : (!root.isEmpty) = true := by
    rcases hr with rfl | rfl <;> rfl
  have hnorm : normpath p = root ++ ['/'].intercalate ((tail.splitOn '/').foldl walk []) := by
    simp only [normpath, hroot, hroot', hcs]
    rcases hr with rfl | rfl <;> rfl
  rw [hnorm]
  constructor
  · rcases hr with rfl | rfl <;> rfl
  · rw [components_root hr, components_intercalate hplain, resolve, if_pos h, hp]

def Normal (p : List Char) : Prop := isAbs p = true ∧ ∀ c ∈ components p, Plain c

theorem Normal.walk {p : List Char} (h : Normal p) : (p.splitOn '/').foldl walk [] = components p := by
  rw [← foldl_walk_filter, ← components, foldl_walk_plain h.2]
  rfl

theorem isAbs_append {p : List Char} (h : isAbs p = true) (q : List Char) :
    isAbs (p ++ q) = true := by
  unfold isAbs at h
  split at h
  · rfl
  · cases h

theorem ne_nil_of_isAbs {p : List Char} (h : isAbs p = true) : p.isEmpty = false := by
  cases p with
  | nil => simp [isAbs] at h
  | cons a p => rfl

theorem getLast_sep {p : List Char} (h : endsWithSep p = true) : ∃ q, p = q ++ ['/'] := by
  simp only [endsWithSep, beq_iff_eq] at h
  exact ⟨p.dropLast, (List.dropLast_append_getLast? _ h).symm⟩

theorem join_walk {p : List Char} (h : Normal p) {q : List Char} (hq : isAbs q = false) :
    isAbs (join p q) = true ∧
      ((join p q).splitOn '/').foldl walk [] = (q.splitOn '/').foldl walk (components p) := by
  simp only [join, hq, ne_nil_of_isAbs h.1, Bool.or_self, Bool.false_eq_true, if_false]
  split
  · next hl =>
      obtain ⟨r, rfl⟩ := getLast_sep hl
      refine ⟨isAbs_append h.1 q, ?_⟩
      have hw := h.walk
      have he : r ++ ['/'] ++ q = r ++ '/' :: q := by simp
      rw [he, List.splitOn_append_cons_self, List.foldl_append]
      rw [List.splitOn_append_cons_self, List.foldl_append] at hw
      rw [← hw]
      rfl
  · refine ⟨isAbs_append h.1 _, ?_⟩
    rw [List.splitOn_append_cons_self, List.foldl_append, h.walk]

theorem normpath_join {p : List Char} (h : Normal p) {q : List Char} (hq : isAbs q = false) :
    Normal (normpath (join p q)) ∧ components (normpath (join p q)) = resolve (components p) q := by
  obtain ⟨habs, hwalk⟩ := join_walk h hq
  obtain ⟨hn, hc⟩ := normpath_abs habs
  have he : resolve [] (join p q) = resolve (components p) q := by
    simp only [resolve, habs, hq, if_true, Bool.false_eq_true, if_false, hwalk]
  refine ⟨⟨hn, ?_⟩, hc.trans he⟩
  rw [hc]
  exact resolve_plain (by simp) _

theorem normpath_normal {p : List Char} (h : isAbs p = true) : Normal (normpath p) := by
  obtain ⟨hn, hc⟩ := normpath_abs h
  refine ⟨hn, ?_⟩
  rw [hc]
  exact resolve_plain (by simp) _

theorem normal_root : Normal ['/'] := ⟨rfl, by simp [components, splitOn_sep]⟩

theorem resolve_normal {p : List Char} (h : Normal p) (stack : List Component) :
    resolve stack p = components p := by
  simp only [resolve, h.1, if_true, h.walk]

end PosixPath

end PandaProxy.Python
