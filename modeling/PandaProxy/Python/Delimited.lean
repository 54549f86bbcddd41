import PandaProxy.Python.Str

namespace PandaProxy.Python

namespace Str

variable {s : String} {c sep : Char} {start : Nat} {before middle body rest : List Char} {parts : List String}

theorem find_first (hs : s.toList = before ++ (middle ++ c :: rest)) (hstart : before.length = start) (hmiddle : c ∉ middle) :
    find s c start = some (start + middle.length) := by
  have hnone : middle.findIdx? (fun d => d == c) = none := by
    rw [List.findIdx?_eq_none_iff]
    intro d hd
    rw [beq_eq_false_iff_ne]
    rintro rfl
    exact hmiddle hd
  rw [find, hs, List.drop_left' hstart, List.findIdx?_append, hnone]
  simp [List.findIdx?_cons]

theorem slice_middle (hs : s.toList = before ++ (middle ++ rest)) (hstart : before.length = start) :
    slice s start (start + middle.length) = .ofList middle := by
  rw [slice, hs, ← List.append_assoc, List.take_left' (by rw [List.length_append, hstart]), List.drop_left' hstart]

theorem bracketed {opening closing : Char} (hs : s.toList = before ++ opening :: (body ++ closing :: rest))
    (hopening : opening ∉ before) (hclosing : closing ∉ body) :
    find s opening 0 = some before.length ∧ find s closing (before.length + 1) = some (before.length + 1 + body.length) ∧
      slice s (before.length + 1) (before.length + 1 + body.length) = .ofList body := by
  have hbody : s.toList = (before ++ [opening]) ++ (body ++ closing :: rest) := by
    rw [hs, List.append_assoc, List.singleton_append]
  have hlength : (before ++ [opening]).length = before.length + 1 := List.length_append
  have hfirst : find s opening 0 = some (0 + before.length) :=
    find_first (show s.toList = [] ++ (before ++ opening :: (body ++ closing :: rest)) from hs) rfl hopening
  rw [Nat.zero_add] at hfirst
  exact ⟨hfirst, find_first hbody hlength hclosing, slice_middle hbody hlength⟩

theorem toList_join (sep : String) (parts : List String) : (join sep parts).toList = sep.toList.intercalate (parts.map String.toList) :=
  String.toList_intercalate

theorem split_joined (hparts : ∀ part ∈ parts, sep ∉ part.toList) (hne : parts ≠ []) :
    split sep (.ofList ([sep].intercalate (parts.map String.toList))) = parts := by
  rw [split, String.toList_ofList, List.splitOn_intercalate sep _ (by simpa using hne)]
  · simp
  · simpa using hparts

end Str

end PandaProxy.Python
