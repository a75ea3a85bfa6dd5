/-!
Cutting a known ending off a text. The ending must match to the last character; an empty ending
always matches and leaves the text as it is.
-/

namespace ShapeCompat.Text

/-- The characters before `ending`, when `chars` ends with it. -/
def cutEnd? (chars ending : List Char) : Option (List Char) :=
  if ending.isSuffixOf chars then some (chars.take (chars.length - ending.length)) else none

theorem cut_end_append (stem ending : List Char) : cutEnd? (stem ++ ending) ending = some stem := by
  simp [cutEnd?]

theorem eq_append_of_cut_end {chars ending stem : List Char}
    (cut : cutEnd? chars ending = some stem) : chars = stem ++ ending := by
  unfold cutEnd? at cut
  split at cut
  · rename_i suffix
    obtain ⟨front, rfl⟩ := List.isSuffixOf_iff_suffix.mp suffix
    simp at cut
    rw [← cut]
  · cases cut

end ShapeCompat.Text
