/-! Lists of entries that hold one entry for a key, in the order in which the keys first came. -/

set_option autoImplicit false

namespace UriTemplate

abbrev Entries (κ ν : Type) := List (κ × ν)

namespace Entries

variable {κ ν : Type} [BEq κ]

/-- A new key goes to the end; a key that is there keeps its place and takes the new item. -/
def put (key : κ) (item : ν) : Entries κ ν → Entries κ ν
  | [] => [(key, item)]
  | (k, i) :: rest => if k == key then (k, item) :: rest else (k, i) :: put key item rest

def erase (key : κ) (entries : Entries κ ν) : Entries κ ν :=
  entries.filter fun entry => !(entry.1 == key)

/-- Of entries with one key, the first gives the place and the last the item. -/
def ofList (entries : List (κ × ν)) : Entries κ ν :=
  entries.foldl (fun kept entry => kept.put entry.1 entry.2) []

def keys (entries : Entries κ ν) : List κ :=
  entries.map Prod.fst

omit [BEq κ] in
theorem keys_append (before after : Entries κ ν) :
    keys (before ++ after) = before.keys ++ after.keys :=
  List.map_append

theorem keys_put [LawfulBEq κ] (key : κ) (item : ν) (entries : Entries κ ν) :
    (entries.put key item).keys =
      if key ∈ entries.keys then entries.keys else entries.keys ++ [key] := by
  induction entries with
  | nil => rfl
  | cons entry rest ih =>
    obtain ⟨k, i⟩ := entry
    by_cases same : k = key
    · simp [put, keys, same]
    · have other : ¬ key = k := fun h => same h.symm
      simp only [keys] at ih
      by_cases found : key ∈ rest.map Prod.fst <;>
        simp [put, keys, same, other, found, ih]

theorem lookup_put [LawfulBEq κ] (key other : κ) (item : ν) (entries : Entries κ ν) :
    (entries.put key item).lookup other =
      if other == key then some item else entries.lookup other := by
  induction entries with
  | nil => simp only [put, List.lookup_cons, List.lookup_nil]; cases other == key <;> rfl
  | cons entry rest ih =>
    obtain ⟨k, i⟩ := entry
    by_cases same : k = key
    · subst same
      simp only [put, beq_self_eq_true, if_true, List.lookup_cons]
      cases other == k <;> rfl
    · have apart : (k == key) = false := by simpa using same
      simp only [put, apart, Bool.false_eq_true, if_false, List.lookup_cons, ih]
      by_cases first : other = k
      · subst first; simp [apart]
      · have : (other == k) = false := by simpa using first
        simp [this]

theorem nodup_keys_put [LawfulBEq κ] (key : κ) (item : ν) {entries : Entries κ ν}
    (distinct : entries.keys.Nodup) : (entries.put key item).keys.Nodup := by
  rw [keys_put]
  split
  · exact distinct
  · next absent =>
    rw [List.nodup_append]
    refine ⟨distinct, by simp, ?_⟩
    intro a member b single
    rw [List.mem_singleton] at single
    subst single
    rintro rfl
    exact absent member

theorem mem_put {key : κ} {item : ν} {entries : Entries κ ν} {entry : κ × ν} [LawfulBEq κ]
    (member : entry ∈ entries.put key item) : entry = (key, item) ∨ entry ∈ entries := by
  induction entries with
  | nil => exact Or.inl (List.mem_singleton.mp member)
  | cons first rest ih =>
    obtain ⟨k, i⟩ := first
    rw [put] at member
    split at member
    · next same =>
      rcases List.mem_cons.mp member with rfl | member
      · exact Or.inl (congrArg (·, item) (eq_of_beq same))
      · exact Or.inr (List.mem_cons_of_mem _ member)
    · rcases List.mem_cons.mp member with rfl | member
      · exact Or.inr List.mem_cons_self
      · exact (ih member).imp_right (List.mem_cons_of_mem _)

theorem lookup_foldl_put [LawfulBEq κ] (kept : Entries κ ν) (entries : List (κ × ν)) (key : κ) :
    (entries.foldl (fun kept entry => kept.put entry.1 entry.2) kept).lookup key =
      (entries.reverse.lookup key).or (kept.lookup key) := by
  induction entries generalizing kept with
  | nil => rfl
  | cons entry rest ih =>
    obtain ⟨k, i⟩ := entry
    rw [List.foldl_cons, ih, lookup_put, List.reverse_cons, List.lookup_append, Option.or_assoc,
      List.lookup_cons, List.lookup_nil]
    cases key == k with
    | true => rfl
    | false => rfl

theorem lookup_ofList [LawfulBEq κ] (entries : List (κ × ν)) (key : κ) :
    (ofList entries).lookup key = entries.reverse.lookup key := by
  rw [ofList, lookup_foldl_put, List.lookup_nil, Option.or_none]

theorem nodup_keys_ofList [LawfulBEq κ] (entries : List (κ × ν)) :
    (ofList entries).keys.Nodup := by
  apply List.foldlRecOn entries (motive := fun kept => (keys kept).Nodup)
  · exact List.nodup_nil
  · intro kept distinct entry _
    exact nodup_keys_put entry.1 entry.2 distinct

theorem keys_erase (key : κ) (entries : Entries κ ν) :
    (entries.erase key).keys = entries.keys.filter fun k => !(k == key) := by
  simp [keys, erase, List.filter_map, Function.comp_def]

theorem lookup_erase [LawfulBEq κ] (key other : κ) (entries : Entries κ ν) :
    (entries.erase key).lookup other = if other == key then none else entries.lookup other := by
  induction entries with
  | nil => simp [erase]
  | cons entry rest ih =>
    obtain ⟨k, i⟩ := entry
    rw [erase] at ih
    by_cases same : k = key
    · subst same
      simp only [erase, List.filter_cons, beq_self_eq_true, Bool.not_true, Bool.false_eq_true,
        if_false, ih, List.lookup_cons]
      cases other == k <;> rfl
    · have apart : (k == key) = false := by simpa using same
      simp only [erase, List.filter_cons, apart, Bool.not_false, if_true, List.lookup_cons, ih]
      by_cases first : other = k
      · subst first; simp [apart]
      · have : (other == k) = false := by simpa using first
        simp [this]

theorem put_of_absent [LawfulBEq κ] {key : κ} (item : ν) {entries : Entries κ ν}
    (absent : key ∉ entries.keys) : entries.put key item = entries ++ [(key, item)] := by
  induction entries with
  | nil => rfl
  | cons entry rest ih =>
    obtain ⟨k, i⟩ := entry
    simp only [keys, List.map_cons, List.mem_cons, not_or] at absent
    have apart : (k == key) = false := by simpa using Ne.symm absent.1
    rw [put, apart, if_neg Bool.false_ne_true, ih absent.2, List.cons_append]

theorem lookup_of_absent [LawfulBEq κ] {key : κ} {entries : Entries κ ν}
    (absent : key ∉ entries.keys) : entries.lookup key = none := by
  rw [List.lookup_eq_none_iff]
  intro entry member
  rw [bne_iff_ne]
  rintro rfl
  exact absent (List.mem_map_of_mem member)

theorem erase_of_absent [LawfulBEq κ] {key : κ} {entries : Entries κ ν}
    (absent : key ∉ entries.keys) : entries.erase key = entries := by
  rw [erase, List.filter_eq_self]
  intro entry member
  have other : entry.1 ≠ key := by
    rintro rfl
    exact absent (List.mem_map_of_mem member)
  simpa using other

/-! An entry at its place among entries with other keys. -/

section
variable [LawfulBEq κ] {before after : Entries κ ν} {key : κ} (item : ν)

theorem lookup_append_cons_self (fresh : key ∉ before.keys) :
    List.lookup key (before ++ (key, item) :: after) = some item := by
  rw [List.lookup_append, lookup_of_absent fresh, List.lookup_cons_self, Option.none_or]

theorem lookup_append_cons_of_ne {other : κ} (apart : other ≠ key) :
    List.lookup other (before ++ (key, item) :: after) = List.lookup other (before ++ after) := by
  rw [List.lookup_append, List.lookup_append, List.lookup_cons, beq_false_of_ne apart]

end

section
variable [LawfulBEq κ] {before after : Entries κ ν} {key : κ} {item : ν}
  (distinct : (keys (before ++ (key, item) :: after)).Nodup)
include distinct

omit [BEq κ] [LawfulBEq κ] in
theorem not_mem_keys_of_distinct : key ∉ keys (before ++ after) := by
  simp only [keys, List.map_append, List.map_cons, List.nodup_append, List.nodup_cons] at distinct
  obtain ⟨-, ⟨fresh, -⟩, apart⟩ := distinct
  rw [keys_append, List.mem_append]
  rintro (member | member)
  · exact apart key member key List.mem_cons_self rfl
  · exact fresh member

omit [BEq κ] [LawfulBEq κ] in
theorem apart_of_distinct : ∀ entry ∈ before ++ after, entry.1 ≠ key := by
  intro entry member
  rintro rfl
  exact not_mem_keys_of_distinct distinct (List.mem_map_of_mem member)

theorem lookup_of_distinct : List.lookup key (before ++ (key, item) :: after) = some item := by
  apply lookup_append_cons_self
  intro member
  apply not_mem_keys_of_distinct distinct
  rw [keys_append]
  exact List.mem_append_left _ member

theorem put_of_distinct (other : ν) :
    put key other (before ++ (key, item) :: after) = before ++ (key, other) :: after := by
  have fresh : ∀ entry ∈ before, entry.1 ≠ key := fun entry member =>
    apart_of_distinct distinct entry (List.mem_append_left _ member)
  clear distinct
  induction before with
  | nil => simp [put]
  | cons entry before ih =>
    obtain ⟨apart, fresh⟩ := List.forall_mem_cons.mp fresh
    have different : (entry.1 == key) = false := by simpa using apart
    rw [List.cons_append, put, different, if_neg Bool.false_ne_true, ih fresh, List.cons_append]

theorem erase_of_distinct : erase key (before ++ (key, item) :: after) = before ++ after := by
  have kept : (before ++ after).filter (fun entry => !(entry.1 == key)) = before ++ after := by
    rw [List.filter_eq_self]
    intro entry member
    simpa using apart_of_distinct distinct entry member
  rw [List.filter_append] at kept
  simpa [erase, List.filter_append, List.filter_cons] using kept

end

/-! Entries in whatever order, as long as no key comes twice. -/

section
variable [LawfulBEq κ] {entries others : Entries κ ν} (distinct : entries.keys.Nodup) {key : κ}
include distinct

theorem lookup_eq_some_iff_mem {item : ν} :
    entries.lookup key = some item ↔ (key, item) ∈ entries := by
  constructor
  · intro found
    obtain ⟨before, after, rfl, -⟩ := List.lookup_eq_some_iff.mp found
    exact List.mem_append_right before List.mem_cons_self
  · intro member
    obtain ⟨before, after, rfl⟩ := List.append_of_mem member
    exact lookup_of_distinct distinct

theorem lookup_perm (perm : entries.Perm others) : others.lookup key = entries.lookup key := by
  have distinctOthers : others.keys.Nodup := (perm.map Prod.fst).nodup_iff.mp distinct
  apply Option.ext
  intro item
  rw [lookup_eq_some_iff_mem distinct, lookup_eq_some_iff_mem distinctOthers, perm.mem_iff]

end

end Entries

end UriTemplate
