import ApiScribe.Proofs.Json.Grammar
import ApiScribe.Proofs.Table

set_option autoImplicit false

/-! # Objects without repeated keys

A text may repeat a key of an object, but a value that is read does not: the members are put into a
table one by one, where the last value of a key replaces those before (`Json.isKeyed_of_read`). So
whatever holds of values without repeated keys (`Json.isKeyed`) holds of every document that comes
from a text. -/

namespace ApiScribe.Json

mutual

/-- Whether no object in a value repeats a key. -/
def isKeyed : Json → Bool
  | .array items => areKeyed items
  | .object members => decide (Table.keys members).Nodup && membersKeyed members
  | _ => true

/-- Whether this is so in every item. -/
def areKeyed : List Json → Bool
  | [] => true
  | item :: rest => item.isKeyed && areKeyed rest

/-- Whether this is so in the value of every member. -/
def membersKeyed : List (LooseText × Json) → Bool
  | [] => true
  | (_, value) :: rest => value.isKeyed && membersKeyed rest

end

theorem areKeyed_iff {items : List Json} :
    areKeyed items = true ↔ ∀ item ∈ items, item.isKeyed = true := by
  induction items with
  | nil => simp [areKeyed]
  | cons item rest ih => simp [areKeyed, ih]

theorem membersKeyed_iff {members : List (LooseText × Json)} :
    membersKeyed members = true ↔ ∀ member ∈ members, member.2.isKeyed = true := by
  induction members with
  | nil => simp [membersKeyed]
  | cons member rest ih => simp [membersKeyed, ih]

theorem isKeyed_object_iff {members : List (LooseText × Json)} :
    (Json.object members).isKeyed = true ↔ Table.Distinct members ∧
      ∀ member ∈ members, member.2.isKeyed = true := by
  rw [isKeyed, Bool.and_eq_true, decide_eq_true_iff, membersKeyed_iff, Table.Distinct]

theorem isKeyed_of_get? {members : Members} (h : (Json.object members).isKeyed = true)
    {key : LooseText} {value : Json} (hget : members.get? key = some value) :
    value.isKeyed = true :=
  (isKeyed_object_iff.1 h).2 _ (Table.mem_of_get? hget)

/-! ## What is read -/

theorem isKeyed_of_readScalar {text rest : List Char} {value : Json}
    (h : readScalar text = .ok (value, rest)) : value.isKeyed = true := by
  unfold readScalar at h
  split at h
  · next word found hfound =>
    obtain ⟨rfl, -⟩ := Prod.mk.inj (Except.ok.inj h)
    have hwords : ∀ entry ∈ words, entry.2.isKeyed = true := by decide
    exact hwords _ (List.mem_of_find?_eq_some hfound)
  · split at h
    · obtain ⟨rfl, -⟩ := Prod.mk.inj (Except.ok.inj h)
      rfl
    · cases h

mutual

theorem ValueAt.isKeyed {text rest : List Char} {value : Json} :
    ValueAt text value rest → value.isKeyed = true
  | .string _ => rfl
  | .emptyArray _ => rfl
  | .array hitems => areKeyed_iff.2 hitems.isKeyed
  | .emptyObject _ => by decide
  | .object hmembers =>
    isKeyed_object_iff.2 ⟨Table.distinct_ofList _, fun member hmember =>
      hmembers.isKeyed member (Table.mem_of_mem_ofList hmember)⟩
  | .scalar hread => isKeyed_of_readScalar hread

theorem ItemsAt.isKeyed {text rest : List Char} {items : List Json} :
    ItemsAt text items rest → ∀ item ∈ items, item.isKeyed = true
  | .last hitem _ => by simpa using hitem.isKeyed
  | .more hitem _ hitems => by simpa using ⟨hitem.isKeyed, hitems.isKeyed⟩

theorem MembersAt.isKeyed {text rest : List Char} {members : List (LooseText × Json)} :
    MembersAt text members rest → ∀ member ∈ members, member.2.isKeyed = true
  | .last _ _ hvalue _ => by simpa using hvalue.isKeyed
  | .more _ _ hvalue _ hmembers => by
    intro member hmember
    rcases List.mem_cons.1 hmember with rfl | hmember
    · exact hvalue.isKeyed
    · exact hmembers.isKeyed member hmember

end

/-- **A value that is read repeats no keys**, whatever the text repeats. -/
theorem isKeyed_of_read {text : String} {value : Json} (h : read text = .ok value) :
    value.isKeyed = true := by
  obtain ⟨-, rest, hvalue, -⟩ := readAll_eq_ok_iff.1 (read_eq_ok_iff.1 h)
  exact hvalue.isKeyed

end ApiScribe.Json
