import ShapeCompat.Proofs.Construction.Ambiguity
import Mathlib.Data.List.Induction

/-!
The scan for ambiguous entries, over any overloads. As long as the signatures that were read are
distinct the scan keeps all of them with their labels, so it stops at the first entry that looks like
one before it and finds the label of that one.
-/

namespace ShapeCompat

/-- An entry beside the overload that has it. -/
abbrev OwnedEntry : Type := Overload × EntryPoint

namespace OwnedEntry

def signature (owned : OwnedEntry) : List String := owned.2.erasedSignature

def label (owned : OwnedEntry) : String := entryLabel owned.1 owned.2

end OwnedEntry

/-- All entries in the order of overloads and, in each, of its entries. -/
def ownedEntries (overloads : List Overload) : List OwnedEntry :=
  overloads.flatMap fun overload => overload.entries.map (overload, ·)

/-- `second` is the first entry that has the signature of one before it, and `first` is the only one
that it shares the signature with. -/
def FirstClash (entries : List OwnedEntry) (first second : OwnedEntry) : Prop :=
  ∃ before after, entries = before ++ second :: after ∧
    (before.map OwnedEntry.signature).Nodup ∧
    before.filter (·.signature == second.signature) = [first]

theorem labelled_signatures_eq (overloads : List Overload) :
    labelledSignatures overloads =
      (ownedEntries overloads).map fun owned => (owned.signature, owned.label) := by
  rw [labelledSignatures, ownedEntries, List.map_flatMap]
  simp only [List.map_map]
  rfl

theorem signatures_owned (overloads : List Overload) :
    signatures overloads = (ownedEntries overloads).map OwnedEntry.signature := by
  rw [signatures, ownedEntries, List.map_flatMap]
  simp only [List.map_map]
  rfl

/-- Where keys are not distinct, there is a first item with the key of one before it. -/
theorem first_repetition {Item Key : Type} [DecidableEq Key] (key : Item → Key) (items : List Item)
    (repeated : ¬(items.map key).Nodup) :
    ∃ before item after, items = before ++ item :: after ∧ (before.map key).Nodup ∧
      key item ∈ before.map key := by
  -- Either there is a repetition before the last item, or the last item is the first one.
  induction items using List.reverseRecOn with
  | nil => exact (repeated List.nodup_nil).elim
  | append_singleton items last induction =>
      by_cases distinct : (items.map key).Nodup
      · refine ⟨items, last, [], rfl, distinct, ?_⟩
        by_contra fresh
        apply repeated
        rw [List.map_append, List.map_singleton, List.nodup_append]
        refine ⟨distinct, List.nodup_singleton _, ?_⟩
        intro earlier member other isLast same
        rw [List.mem_singleton.mp isLast] at same
        exact fresh (same ▸ member)
      · obtain ⟨before, item, after, rfl, distinctBefore, again⟩ := induction distinct
        exact ⟨before, item, after ++ [last], by simp, distinctBefore, again⟩

/-- The scan goes over entries with new signatures and keeps them. -/
theorem first_ambiguity_over (seen read rest : List (List String × String))
    (distinct : ((read.reverse ++ seen).map (·.1)).Nodup) :
    firstAmbiguity? seen (read ++ rest) = firstAmbiguity? (read.reverse ++ seen) rest := by
  induction read generalizing seen with
  | nil => rfl
  | cons entry read induction =>
      have kept : (entry :: read).reverse ++ seen = read.reverse ++ entry :: seen := by simp
      rw [kept] at distinct ⊢
      have fresh : seen.lookup entry.1 = none := by
        apply lookup_of_not_mem
        intro earlier
        rw [List.map_append, List.map_cons, List.nodup_append] at distinct
        exact (List.nodup_cons.mp distinct.2.1).1 earlier
      rw [List.cons_append, firstAmbiguity?, fresh]
      exact induction (entry :: seen) distinct

namespace FirstClash

variable {overloads : List Overload} {first second : OwnedEntry}

theorem ambiguity (clash : FirstClash (ownedEntries overloads) first second) :
    ambiguity? overloads = some ⟨first.label, second.label, second.signature⟩ := by
  obtain ⟨before, after, split, distinct, only⟩ := clash
  have listed : first ∈ before.filter (·.signature == second.signature) :=
    only ▸ List.mem_singleton_self first
  obtain ⟨earlier, same⟩ := List.mem_filter.mp listed
  have read : ((before.map fun owned => (owned.signature, owned.label)).reverse.map
      (·.1)).Nodup := by
    rw [List.map_reverse, List.nodup_reverse, List.map_map]
    exact distinct
  have found : (before.map fun owned => (owned.signature, owned.label)).reverse.lookup
      second.signature = some first.label := by
    apply lookup_of_mem _ read
    rw [List.mem_reverse, ← beq_iff_eq.mp same]
    exact List.mem_map_of_mem earlier
  rw [ambiguity?, labelled_signatures_eq, split, List.map_append, List.map_cons,
    first_ambiguity_over, List.append_nil, firstAmbiguity?, found]
  rw [List.append_nil]
  exact read

theorem exists_of_repeated {entries : List OwnedEntry}
    (repeated : ¬(entries.map OwnedEntry.signature).Nodup) :
    ∃ first second, FirstClash entries first second := by
  obtain ⟨before, second, after, split, distinct, again⟩ :=
    first_repetition OwnedEntry.signature entries repeated
  obtain ⟨first, earlier, same⟩ := List.mem_map.mp again
  have only := filter_key_eq_singleton OwnedEntry.signature before distinct earlier
  rw [same] at only
  exact ⟨first, second, before, after, split, distinct, only⟩

end FirstClash

/-- The defect of two entries that erase to one signature. -/
def clashDefect (shape : String) (first second : OwnedEntry) : Defect :=
  .schema shape none (.ambiguousOverloads first.label second.label
    (String.intercalate ", " second.signature))

/-- The check of any overloads passes exactly if the signatures of all entries are distinct. Else it
names the first entry that looks like one before it, and the one that it looks like. -/
theorem ambiguity_check_reports_first_clash (shape : String) (overloads : List Overload) :
    (checkAmbiguity shape overloads = .ok () ↔
      ((ownedEntries overloads).map OwnedEntry.signature).Nodup) ∧
    ∀ defect, checkAmbiguity shape overloads = .error defect ↔
      ∃ first second, FirstClash (ownedEntries overloads) first second ∧
        defect = clashDefect shape first second := by
  have refused : ∀ first second, FirstClash (ownedEntries overloads) first second →
      checkAmbiguity shape overloads = .error (clashDefect shape first second) := by
    intro first second clash
    rw [checkAmbiguity, clash.ambiguity]
    rfl
  rw [← signatures_owned, ← ambiguity_none_iff]
  constructor
  · unfold checkAmbiguity
    cases ambiguity? overloads <;> simp
  · intro defect
    constructor
    · intro failed
      have repeated : ¬((ownedEntries overloads).map OwnedEntry.signature).Nodup := by
        rw [← signatures_owned, ← ambiguity_none_iff]
        intro clean
        rw [checkAmbiguity, clean] at failed
        cases failed
      obtain ⟨first, second, clash⟩ := FirstClash.exists_of_repeated repeated
      rw [refused first second clash] at failed
      exact ⟨first, second, clash, (Except.error.inj failed).symm⟩
    · intro reported
      obtain ⟨first, second, clash, rfl⟩ := reported
      exact refused first second clash

end ShapeCompat
