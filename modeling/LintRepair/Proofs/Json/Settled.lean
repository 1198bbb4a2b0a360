import LintRepair.Wire.Basic

/-!
# Settled values

What is written by the program is data as it stands: its integers are in range, its keys are
distinct, and it is not nested deeply.
-/

namespace LintRepair

namespace Json

variable {depth : Nat}

theorem settled?_ofInt {n : Int} (fits : n.natAbs ≤ JsonNumber.maxSignificand) :
    settled? depth (ofInt n) = some (ofInt n) := by
  have kept : JsonNumber.leading n.natAbs = (n.natAbs, 0) := by
    rw [JsonNumber.leading, if_pos fits]
  have finite : (JsonNumber.ofInt n).isFinite := by
    simp [JsonNumber.isFinite, JsonNumber.ofInt, kept, JsonNumber.withFraction]
  rw [ofInt, settled?, if_pos finite]

theorem settled?_string (s : Text) : settled? depth (string s) = some (string s) := by
  simp [settled?]

theorem settled?_ofText? (s : Option Text) : settled? depth (ofText? s) = some (ofText? s) := by
  cases s <;> simp [ofText?, settled?]

theorem mapM_eq_self {f : α → Option α} {as : List α} (kept : ∀ a ∈ as, f a = some a) :
    as.mapM f = some as := by
  induction as with
  | nil => rfl
  | cons a as ih =>
      obtain ⟨first, later⟩ := List.forall_mem_cons.mp kept
      simp [first, ih later]

theorem settled?_array {items : List Json}
    (items_settled : ∀ item ∈ items, settled? depth item = some item) :
    settled? (depth + 1) (array items) = some (array items) := by
  rw [settled?, mapM_eq_self items_settled]
  rfl

theorem lastMembers_eq_self {members : List (Text × α)} (distinct : (members.map (·.1)).Nodup) :
    lastMembers members = members := by
  induction members with
  | nil => rfl
  | cons m members ih =>
      obtain ⟨absent, later_distinct⟩ := List.nodup_cons.mp distinct
      have unrepeated : ¬ members.any (·.1 = m.1) := by
        rw [List.any_eq_true]
        rintro ⟨other, member, same⟩
        exact absent (List.mem_map.mpr ⟨other, member, of_decide_eq_true same⟩)
      rw [lastMembers, if_neg unrepeated, ih later_distinct]

theorem settled?_object {members : List (Text × Json)} (distinct : (members.map (·.1)).Nodup)
    (members_settled : ∀ m ∈ members, settled? depth m.2 = some m.2) :
    settled? (depth + 1) (object members) = some (object members) := by
  have kept : ∀ m ∈ members, (settled? depth m.2).map (m.1, ·) = some m := by
    intro m member
    rw [members_settled m member]
    rfl
  rw [settled?, mapM_eq_self kept, Option.map_some, lastMembers_eq_self distinct]

end Json

namespace Report

open Json

variable {depth : Nat}

theorem natAbs_toInt_le (n : Int64) : n.toInt.natAbs ≤ JsonNumber.maxSignificand := by
  have least := n.le_toInt
  have greatest := n.toInt_lt
  have size : UInt64.size = 18446744073709551616 := rfl
  unfold JsonNumber.maxSignificand
  omega

theorem Place.settled?_toJson (p : Place) : settled? (depth + 1) p.toJson = some p.toJson := by
  refine settled?_object (by simp) ?_
  simp [settled?_ofInt (natAbs_toInt_le _)]

theorem Span.settled?_toJson (s : Span) : settled? (depth + 2) s.toJson = some s.toJson := by
  refine settled?_object (by simp) ?_
  simp [Place.settled?_toJson]

theorem Failure.settled?_toJson (f : Failure) : settled? (depth + 1) f.toJson = some f.toJson := by
  refine settled?_object (by simp) ?_
  simp [settled?_string]

theorem Entry.settled?_toJson (e : Entry) : settled? (depth + 3) e.toJson = some e.toJson := by
  have related_settled : settled? (depth + 2) (array (e.related.map string)) =
      some (array (e.related.map string)) :=
    settled?_array (by simp [settled?_string])
  refine settled?_object (by simp) ?_
  simp [Span.settled?_toJson, settled?_string, settled?_ofText?, related_settled]

end Report

end LintRepair
