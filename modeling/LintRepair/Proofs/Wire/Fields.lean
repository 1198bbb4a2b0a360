import Mathlib.Data.Option.Basic
import LintRepair.Wire.Fields
import LintRepair.Proofs.Json.RoundTrip

/-!
# Carried values

A type is carried by JSON when every value that fits the wire is read back from what it is written
as, and every value that is read at all fits.  Fields are carried first: integers of 64 bits, texts,
optional ones and lists.  Whatever JSON carries, its text carries too, since the compact form of
every JSON value is read back.
-/

namespace LintRepair

namespace Wire

variable {α : Type} {write : α → Json} {read : Json → Option α} {Fits : α → Prop}

/-- Values that fit are read back from what they are written as, and values that are read fit. -/
structure Carries (write : α → Json) (read : Json → Option α) (Fits : α → Prop) : Prop where
  /-- Reading undoes writing. -/
  read_write : ∀ a, Fits a → read (write a) = some a
  /-- What is read fits. -/
  fits_of_read : ∀ value a, read value = some a → Fits a

/-- The text that a value is sent as. -/
def encode (write : α → Json) (a : α) : Text := (write a).compact

/-- The value of a text, nothing when it is no JSON or not of the right shape. -/
def decode? (read : Json → Option α) (text : Text) : Option α := Json.parse? text >>= read

/-- Texts carry the values that fit, in both directions. -/
structure RoundTrips (write : α → Json) (read : Json → Option α) (Fits : α → Prop) : Prop where
  /-- Decoding undoes encoding. -/
  decode_encode : ∀ a, Fits a → decode? read (encode write a) = some a
  /-- A decoded value fits, and encoding and decoding it again changes nothing. -/
  encode_decode : ∀ text a, decode? read text = some a →
    Fits a ∧ decode? read (encode write a) = some a

theorem decode?_compact (value : Json) : decode? read value.compact = read value := by
  simp [decode?, Json.parse?_compact]

theorem Carries.roundTrips (carries : Carries write read Fits) : RoundTrips write read Fits where
  decode_encode a fits := by
    rw [encode, decode?_compact]
    exact carries.read_write a fits
  encode_decode text a decoded := by
    obtain ⟨value, -, given⟩ := Option.bind_eq_some_iff.mp decoded
    have fits := carries.fits_of_read value a given
    refine ⟨fits, ?_⟩
    rw [encode, decode?_compact]
    exact carries.read_write a fits

/-! ### Integers -/

theorem integer?_ofInt (n : Int) : (JsonNumber.ofInt n).integer? = some n := by
  by_cases negative : n < 0
  · have size : ((n.natAbs : Nat) : Int) = -n := by omega
    have nonzero : n ≠ 0 := by omega
    simp [JsonNumber.ofInt, JsonNumber.integer?, negative, size, nonzero]
  · have size : ((n.natAbs : Nat) : Int) = n := by omega
    simp [JsonNumber.ofInt, JsonNumber.integer?, negative, size]

/-- An integer that is read under a condition. -/
theorem checked_eq_some {p : Int → Prop} [DecidablePred p] {f : Int → α} {given : Option Int}
    {a : α} :
    (do let n ← given; guard (p n); return f n) = some a ↔
      ∃ n, given = some n ∧ p n ∧ f n = a := by
  constructor
  · intro checked
    obtain ⟨n, found, checked⟩ := Option.bind_eq_some_iff.mp checked
    obtain ⟨⟨⟩, guarded, made⟩ := Option.bind_eq_some_iff.mp checked
    exact ⟨n, found, (Option.guard_eq_some' ()).mp guarded, Option.some.inj made⟩
  · rintro ⟨n, rfl, holds, rfl⟩
    refine Option.bind_eq_some_iff.mpr ⟨n, rfl, ?_⟩
    exact Option.bind_eq_some_iff.mpr ⟨(), if_pos holds, rfl⟩

theorem natural?_eq_some {value : Json} {n : Nat} :
    value.natural? = some n ↔
      ∃ m, value.integer? = some m ∧ (0 ≤ m ∧ m < UInt64.size) ∧ m.toNat = n :=
  checked_eq_some

theorem int64?_eq_some {value : Json} {n : Int64} :
    value.int64? = some n ↔
      ∃ m, value.integer? = some m
        ∧ (Int64.minValue.toInt ≤ m ∧ m ≤ Int64.maxValue.toInt) ∧ Int64.ofInt m = n :=
  checked_eq_some

theorem carries_natural :
    Carries (fun n : Nat => Json.ofInt n) Json.natural? (fun n => n < UInt64.size) where
  read_write n word :=
    natural?_eq_some.mpr ⟨n, integer?_ofInt n, by omega, Int.toNat_natCast n⟩
  fits_of_read value n given := by
    obtain ⟨m, -, bounds, number⟩ := natural?_eq_some.mp given
    omega

theorem carries_int64 :
    Carries (fun n : Int64 => Json.ofInt n.toInt) Json.int64? (fun _ => True) where
  read_write n _ :=
    int64?_eq_some.mpr
      ⟨n.toInt, integer?_ofInt n.toInt, ⟨n.minValue_le_toInt, n.toInt_le⟩, n.ofInt_toInt⟩
  fits_of_read _ _ _ := trivial

/-! ### Texts, optional fields, lists and pairs -/

theorem carries_text : Carries Json.string Json.text? (fun _ => True) where
  read_write _ _ := rfl
  fits_of_read _ _ _ := trivial

theorem nullable?_ofText? (s : Option Text) :
    Json.nullable? Json.text? (some (Json.ofText? s)) = some s := by
  cases s <;> rfl

theorem exists_read_of_mapM {values : List Json} {as : List α}
    (items : values.mapM read = some as) {a : α} (member : a ∈ as) :
    ∃ value, read value = some a := by
  induction values generalizing as with
  | nil =>
      cases items
      cases member
  | cons value values ih =>
      rw [List.mapM_cons] at items
      obtain ⟨first, given, items⟩ := Option.bind_eq_some_iff.mp items
      obtain ⟨others, rest, joined⟩ := Option.bind_eq_some_iff.mp items
      cases joined
      rcases List.mem_cons.mp member with rfl | member
      · exact ⟨value, given⟩
      · exact ih rest member

/-- A list is carried when its items are. -/
theorem Carries.list (carries : Carries write read Fits) :
    Carries (fun as => .array (as.map write)) (fun value => value.items? >>= List.mapM read)
      (fun as => ∀ a ∈ as, Fits a) where
  read_write as fits := by
    change (as.map write).mapM read = some as
    induction as with
    | nil => rfl
    | cons a as ih =>
        obtain ⟨first, others⟩ := List.forall_mem_cons.mp fits
        simp [carries.read_write a first, ih others]
  fits_of_read value as given := by
    obtain ⟨values, -, items⟩ := Option.bind_eq_some_iff.mp given
    intro a member
    obtain ⟨item, read_item⟩ := exists_read_of_mapM items member
    exact carries.fits_of_read item a read_item

/-- What a record of two fields is read as. -/
theorem pair_eq_some {β γ : Type} {fields : Option (List (Option Json))} {first : Json → Option α}
    {second : Json → Option β} {make : α → β → γ} {c : γ} :
    (do match ← fields with
      | [some x, some y] => return make (← first x) (← second y)
      | _ => none) = some c ↔
      ∃ x y a b, fields = some [some x, some y] ∧ first x = some a ∧ second y = some b
        ∧ make a b = c := by
  constructor
  · intro given
    obtain ⟨_, record, given⟩ := Option.bind_eq_some_iff.mp given
    split at given
    · simp only [Option.bind_eq_bind, Option.bind_eq_some_iff, Option.pure_def] at given
      obtain ⟨a, one, b, other, made⟩ := given
      exact ⟨_, _, a, b, record, one, other, Option.some.inj made⟩
    · cases given
  · rintro ⟨_, _, a, b, record, one, other, rfl⟩
    simp only [record, one, other, Option.bind_eq_bind, Option.bind_some, Option.pure_def]

end Wire

end LintRepair
