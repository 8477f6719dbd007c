import Mathlib.Data.List.Forall2
import UriTemplate.Document
import UriTemplate.Entries

/-! When documents agree. Lists agree item by item and objects key by key, so a document agrees with
itself if none of its objects holds a key twice. -/

set_option autoImplicit false

namespace UriTemplate.Document

inductive Keyed : Document → Prop
  | null : Keyed .null
  | truth (b : Bool) : Keyed (.truth b)
  | integer (n : Int) : Keyed (.integer n)
  | decimal (digits : Int) (places : Nat) : Keyed (.decimal digits places)
  | text (s : String) : Keyed (.text s)
  | list {items : List Document} (inside : ∀ item ∈ items, Keyed item) : Keyed (.list items)
  | object {fields : Entries String Document} (distinct : fields.keys.Nodup)
    (inside : ∀ entry ∈ fields, Keyed entry.2) : Keyed (.object fields)

theorem agreesItems_iff {items others : List Document} :
    agreesItems items others = true ↔
      List.Forall₂ (fun item other => item.agrees other = true) items others := by
  induction items generalizing others with
  | nil => cases others <;> simp [agreesItems]
  | cons item items ih => cases others <;> simp [agreesItems, ih]

theorem agreesFields_iff {fields others : Entries String Document} :
    agreesFields fields others = true ↔
      ∀ entry ∈ fields, ∃ other, others.lookup entry.1 = some other ∧
        entry.2.agrees other = true := by
  induction fields with
  | nil => simp [agreesFields]
  | cons entry fields ih =>
    obtain ⟨key, document⟩ := entry
    rw [agreesFields, Bool.and_eq_true, ih, List.forall_mem_cons]
    cases others.lookup key <;> simp

theorem agrees_self {document : Document} (keyed : document.Keyed) :
    document.agrees document = true := by
  induction keyed with
  | null => simp [agrees]
  | truth b => simp [agrees, sameAmount, amount?]
  | integer n => simp [agrees, sameAmount, amount?]
  | decimal digits places => simp [agrees, sameAmount, amount?]
  | text s => simp [agrees]
  | list inside ih =>
    rw [agrees, agreesItems_iff]
    exact List.forall₂_same.mpr ih
  | object distinct inside ih =>
    simp only [agrees, decide_true, Bool.true_and]
    rw [agreesFields_iff]
    intro entry member
    exact ⟨entry.2, (Entries.lookup_eq_some_iff_mem distinct).mpr member, ih entry member⟩

end UriTemplate.Document
