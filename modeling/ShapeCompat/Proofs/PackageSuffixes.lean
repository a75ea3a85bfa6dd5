import ShapeCompat.Naming
import Mathlib.Data.List.Infix

/-!
Output packages. Of the suffixes that may be dropped only those count that take up whole segments at
the end of the package, and the longest of them is dropped. Two endings of one package that are
equally long are the same, so neither the order of the suffixes nor their repetition shows.
-/

namespace ShapeCompat

/-- The suffixes that a list of written ones comes to. -/
def packageSuffixes (written : List String) : List (List Char) :=
  (written.map packageSuffix).filter (· ≠ [])

/-- The package is the suffix or ends with it behind a dot. -/
def EndsInSegments (package suffix : List Char) : Prop :=
  package = suffix ∨ '.' :: suffix <:+ package

instance (package suffix : List Char) : Decidable (EndsInSegments package suffix) :=
  inferInstanceAs (Decidable (package = suffix ∨ '.' :: suffix <:+ package))

/-- Of the suffixes that the package ends in, the longest one in bytes. -/
structure IsLongestSuffix (package : List Char) (suffixes : List (List Char))
    (suffix : List Char) : Prop where
  listed : suffix ∈ suffixes
  ends : EndsInSegments package suffix
  longest : ∀ other ∈ suffixes, EndsInSegments package other → byteLength other ≤ byteLength suffix

/-- Endings of one text that take up as many bytes are the same. -/
theorem suffix_eq_of_byte_length {text first second : List Char} (firstEnds : first <:+ text)
    (secondEnds : second <:+ text) (same : byteLength first = byteLength second) :
    first = second := by
  rcases List.suffix_or_suffix_of_suffix firstEnds secondEnds with ⟨front, rfl⟩ | ⟨front, rfl⟩
  · rw [byte_length_append] at same
    have empty : byteLength front = 0 := by omega
    rw [byte_length_eq_zero empty, List.nil_append]
  · rw [byte_length_append] at same
    have empty : byteLength front = 0 := by omega
    rw [byte_length_eq_zero empty, List.nil_append]

section Package

variable {package suffix : List Char} {suffixes : List (List Char)}

theorem suffix_of_ends (ends : EndsInSegments package suffix) : suffix <:+ package := by
  rcases ends with rfl | behindDot
  · exact List.suffix_rfl
  · exact (List.suffix_cons '.' suffix).trans behindDot

theorem without_suffix_some_iff {stem : List Char} :
    withoutPackageSuffix? package suffix = some stem ↔
      package = suffix ∧ stem = [] ∨ package ≠ suffix ∧ package = stem ++ '.' :: suffix := by
  unfold withoutPackageSuffix?
  by_cases whole : package = suffix
  · simp [whole, eq_comm]
  · simp only [whole, if_false, false_and, false_or, ne_eq, not_false_eq_true, true_and]
    constructor
    · exact Text.eq_append_of_cut_end
    · rintro rfl
      exact Text.cut_end_append stem ('.' :: suffix)

theorem without_suffix_none_iff :
    withoutPackageSuffix? package suffix = none ↔ ¬EndsInSegments package suffix := by
  unfold withoutPackageSuffix? Text.cutEnd? EndsInSegments
  by_cases whole : package = suffix
  · simp [whole]
  · simp [whole]

theorem IsLongestSuffix.unique {other : List Char}
    (longest : IsLongestSuffix package suffixes suffix)
    (otherLongest : IsLongestSuffix package suffixes other) : other = suffix := by
  apply suffix_eq_of_byte_length (suffix_of_ends otherLongest.ends) (suffix_of_ends longest.ends)
  exact Nat.le_antisymm (longest.longest other otherLongest.listed otherLongest.ends)
    (otherLongest.longest suffix longest.listed longest.ends)

/-- The order in which suffixes are tried. -/
def longestFirst (suffixes : List (List Char)) : List (List Char) :=
  suffixes.mergeSort fun first second => decide (byteLength second ≤ byteLength first)

theorem mem_longest_first : suffix ∈ longestFirst suffixes ↔ suffix ∈ suffixes :=
  (List.mergeSort_perm _ _).mem_iff

theorem longest_first_descending (suffixes : List (List Char)) :
    (longestFirst suffixes).Pairwise fun first second => byteLength second ≤ byteLength first := by
  have sorted : (longestFirst suffixes).Pairwise fun first second =>
      decide (byteLength second ≤ byteLength first) = true := by
    apply List.pairwise_mergeSort
    · simp only [decide_eq_true_eq]
      omega
    · simp only [Bool.or_eq_true, decide_eq_true_eq]
      omega
  exact sorted.imp of_decide_eq_true

/-- What is cut off first is the longest suffix, since those before it do not fit and those behind
it are no longer. -/
theorem longest_of_first_cut {stem : List Char}
    (cut : (longestFirst suffixes).findSome? (withoutPackageSuffix? package) = some stem) :
    ∃ suffix, IsLongestSuffix package suffixes suffix ∧
      withoutPackageSuffix? package suffix = some stem := by
  obtain ⟨before, suffix, after, tried, fits, passed⟩ := List.findSome?_eq_some_iff.mp cut
  have descending := longest_first_descending suffixes
  rw [tried, List.pairwise_append, List.pairwise_cons] at descending
  obtain ⟨_, ⟨atMost, _⟩, _⟩ := descending
  refine ⟨suffix, ⟨?_, ?_, ?_⟩, fits⟩
  · rw [← mem_longest_first, tried]
    exact List.mem_append_right _ List.mem_cons_self
  · by_contra apart
    rw [without_suffix_none_iff.mpr apart] at fits
    cases fits
  · intro other listed ends
    rw [← mem_longest_first, tried, List.mem_append, List.mem_cons] at listed
    rcases listed with earlier | rfl | later
    · exact (without_suffix_none_iff.mp (passed other earlier) ends).elim
    · exact Nat.le_refl _
    · exact atMost other later

theorem first_cut_none_iff :
    (longestFirst suffixes).findSome? (withoutPackageSuffix? package) = none ↔
      ∀ suffix ∈ suffixes, ¬EndsInSegments package suffix := by
  simp only [List.findSome?_eq_none_iff, mem_longest_first, without_suffix_none_iff]

/-- The first cut is that of the longest suffix. -/
theorem first_cut_of_longest (longest : IsLongestSuffix package suffixes suffix) :
    (longestFirst suffixes).findSome? (withoutPackageSuffix? package) =
      withoutPackageSuffix? package suffix := by
  cases cut : (longestFirst suffixes).findSome? (withoutPackageSuffix? package) with
  | none => exact (first_cut_none_iff.mp cut suffix longest.listed longest.ends).elim
  | some stem =>
      obtain ⟨other, otherLongest, fits⟩ := longest_of_first_cut cut
      rw [← fits, longest.unique otherLongest]

theorem longest_suffix_exists (ending : ∃ suffix ∈ suffixes, EndsInSegments package suffix) :
    ∃ suffix, IsLongestSuffix package suffixes suffix := by
  obtain ⟨suffix, listed, ends⟩ := ending
  cases cut : (longestFirst suffixes).findSome? (withoutPackageSuffix? package) with
  | none => exact (first_cut_none_iff.mp cut suffix listed ends).elim
  | some stem =>
      obtain ⟨longest, found, _⟩ := longest_of_first_cut cut
      exact ⟨longest, found⟩

/-- Only which suffixes are listed counts, not where or how often. -/
theorem first_cut_of_same_members {others : List (List Char)}
    (same : ∀ suffix, suffix ∈ others ↔ suffix ∈ suffixes) :
    (longestFirst others).findSome? (withoutPackageSuffix? package) =
      (longestFirst suffixes).findSome? (withoutPackageSuffix? package) := by
  cases cut : (longestFirst suffixes).findSome? (withoutPackageSuffix? package) with
  | none =>
      apply first_cut_none_iff.mpr
      intro suffix listed
      exact first_cut_none_iff.mp cut suffix ((same suffix).mp listed)
  | some stem =>
      obtain ⟨suffix, longest, fits⟩ := longest_of_first_cut cut
      rw [← fits]
      apply first_cut_of_longest
      refine ⟨(same suffix).mpr longest.listed, longest.ends, ?_⟩
      intro other listed
      exact longest.longest other ((same other).mp listed)

end Package

theorem mem_package_suffixes {written : List String} {suffix : List Char} :
    suffix ∈ packageSuffixes written ↔
      suffix ≠ [] ∧ ∃ text ∈ written, packageSuffix text = suffix := by
  simp only [packageSuffixes, List.mem_filter, List.mem_map, decide_eq_true_eq, and_comm]

theorem output_package_eq (package : String) (written : List String) :
    outputPackage package written =
      (((longestFirst (packageSuffixes written)).findSome?
        (withoutPackageSuffix? package.toList)).map String.ofList).getD package := by
  unfold outputPackage longestFirst packageSuffixes
  dsimp only
  split
  · rename_i stem cut
    rw [cut]
    rfl
  · rename_i uncut
    rw [uncut]
    rfl

/-- The package stays as it is where it ends in none of the suffixes. Else one of those that it ends
in is the longest, and that one is dropped with the dot in front of it. Lists with the same members
give the same package. -/
theorem longest_package_suffix_is_dropped (package : String) (written : List String) :
    ((∀ suffix ∈ packageSuffixes written, ¬EndsInSegments package.toList suffix) →
      outputPackage package written = package) ∧
    ((∃ suffix ∈ packageSuffixes written, EndsInSegments package.toList suffix) →
      ∃! suffix, IsLongestSuffix package.toList (packageSuffixes written) suffix) ∧
    (∀ suffix, IsLongestSuffix package.toList (packageSuffixes written) suffix →
      (package.toList = suffix → outputPackage package written = "") ∧
      (package.toList ≠ suffix →
        package.toList = (outputPackage package written).toList ++ '.' :: suffix)) ∧
    ∀ others : List String, (∀ text, text ∈ others ↔ text ∈ written) →
      outputPackage package others = outputPackage package written := by
  refine ⟨?_, ?_, ?_, ?_⟩
  · intro apart
    rw [output_package_eq, first_cut_none_iff.mpr apart]
    rfl
  · intro ending
    obtain ⟨suffix, longest⟩ := longest_suffix_exists ending
    exact ⟨suffix, longest, fun other otherLongest => longest.unique otherLongest⟩
  · intro suffix longest
    have cut := first_cut_of_longest longest
    rw [output_package_eq, cut]
    constructor
    · intro whole
      rw [without_suffix_some_iff.mpr (.inl ⟨whole, rfl⟩)]
      rfl
    · intro proper
      obtain ⟨stem, behindDot⟩ := longest.ends.resolve_left proper
      rw [without_suffix_some_iff.mpr (.inr ⟨proper, behindDot.symm⟩)]
      simpa using behindDot.symm
  · intro others same
    rw [output_package_eq, output_package_eq]
    congr 2
    apply first_cut_of_same_members
    intro suffix
    simp only [mem_package_suffixes, same]

def modelSuffixes : List String := ["model", "cme.api.model", " .api.model "]

/-- A longer ending that begins within a segment is passed over, and a shorter one is not reached. -/
theorem api_model_is_dropped :
    IsLongestSuffix "com.acme.api.model".toList (packageSuffixes modelSuffixes) "api.model".toList ∧
      outputPackage "com.acme.api.model" modelSuffixes = "com.acme" ∧
      outputPackage "com.acme.api.model" (modelSuffixes.reverse ++ modelSuffixes) = "com.acme" ∧
      outputPackage "com.acme.remodel" modelSuffixes = "com.acme.remodel" := by
  have longest : IsLongestSuffix "com.acme.api.model".toList (packageSuffixes modelSuffixes)
      "api.model".toList :=
    ⟨by decide +kernel, by decide +kernel, by decide +kernel⟩
  obtain ⟨_, _, dropped, unordered⟩ :=
    longest_package_suffix_is_dropped "com.acme.api.model" modelSuffixes
  have stem : outputPackage "com.acme.api.model" modelSuffixes = "com.acme" := by
    have cut := (dropped _ longest).2 (by decide +kernel)
    have written : "com.acme.api.model".toList = "com.acme".toList ++ '.' :: "api.model".toList := by
      decide +kernel
    exact String.toList_injective (List.append_cancel_right (cut.symm.trans written))
  refine ⟨longest, stem, ?_, ?_⟩
  · rw [unordered _ (by simp), stem]
  · exact (longest_package_suffix_is_dropped "com.acme.remodel" modelSuffixes).1 (by decide +kernel)

end ShapeCompat
