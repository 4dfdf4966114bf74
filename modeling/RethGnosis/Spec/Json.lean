import RethGnosis.Library.Entries
import RethGnosis.Primitives

set_option autoImplicit false

/-!
# JSON values of a genesis file

`serde_json::Value`, the readings serde derives for a struct, an option and a map, and
`str::parse::<u64>`. An address or a byte string is read by its own type's reader, which is a
parameter.
-/
namespace RethGnosis
open Entries

/-- A number is given by `as_u64`; an object has its members in the order they are visited. -/
inductive Json where
  | null
  | bool (value : Bool)
  | number (asU64 : Option UInt64)
  | string (text : String)
  | array (items : List Json)
  | object (members : List (String × Json))

structure JsonReaders where
  address : Json → Option Address
  bytes : Json → Option Bytes

namespace Json

def readU64 : Json → Option ℕ
  | number (some n) => some n.toNat
  | _ => none

/-- The fields of a struct, by name from an object and by position from an array. -/
def structFields (names : List String) : Json → Option (String → Option Json)
  | object members => some (fun name => members.lookup name)
  | array items =>
    if items.length ≤ names.length then some (fun name => items[names.idxOf name]?) else none
  | _ => none

/-- `#[serde(default)]` on a field of type `Option<T>`. -/
def readOptional {α : Type} (read : Json → Option α) : Option Json → Option (Option α)
  | none => some none
  | some null => some none
  | some value => (read value).map some

def readVec {α : Type} (read : Json → Option α) : Json → Option (List α)
  | array items => readAll read items
  | _ => none

def readMember {κ α : Type} (key : String → Option κ) (read : Json → Option α)
    (member : String × Json) : Option (κ × α) :=
  (key member.1).bind (fun k => (read member.2).map (fun value => (k, value)))

def entries {κ α : Type} (key : String → Option κ) (read : Json → Option α) : Json → List (κ × α)
  | object members => members.filterMap (readMember key read)
  | _ => []

def Readable {κ α : Type} (key : String → Option κ) (read : Json → Option α) : Json → Prop
  | object members => ∀ member ∈ members, ∃ entry, readMember key read member = some entry
  | _ => False

/-- Every member is read and inserted, so that of two with one key the later stays. -/
def readMap {κ α : Type} [Ord κ] [Std.TransOrd κ] (key : String → Option κ)
    (read : Json → Option α) : Json → Option (BTreeMap κ α)
  | object members => (readAll (readMember key read) members).map (fun l => insertAll l ∅)
  | _ => none

theorem readMap_eq_some_iff {κ α : Type} [Ord κ] [Std.TransOrd κ] {key : String → Option κ}
    {read : Json → Option α} {value : Json} {m : BTreeMap κ α} :
    readMap key read value = some m ↔
      Readable key read value ∧ m = insertAll (entries key read value) ∅ := by
  cases value with
  | object members =>
    simp only [readMap, Readable, entries, Option.map_eq_some_iff, readAll_eq_some_iff]
    constructor
    · rintro ⟨l, ⟨hall, rfl⟩, rfl⟩
      exact ⟨hall, rfl⟩
    · rintro ⟨hall, rfl⟩
      exact ⟨_, ⟨hall, rfl⟩, rfl⟩
  | null => simp [readMap, Readable]
  | bool value => simp [readMap, Readable]
  | number asU64 => simp [readMap, Readable]
  | string text => simp [readMap, Readable]
  | array items => simp [readMap, Readable]

theorem readMap_written {κ α β : Type} [Ord κ] [Std.TransOrd κ] [Std.LawfulEqOrd κ]
    {key : String → Option κ} {read : Json → Option β} {text : κ → String} {write : α → Json}
    {f : α → β} {m : BTreeMap κ α} (hkey : ∀ k ∈ m, key (text k) = some k)
    (hread : ∀ value, read (write value) = some (f value)) :
    readMap key read (object (m.toList.map (fun e => (text e.1, write e.2)))) =
      some (insertAll (m.toList.map (fun e => (e.1, f e.2))) ∅) := by
  have hall : ∀ e ∈ m.toList, readMember key read (text e.1, write e.2) = some (e.1, f e.2) := by
    intro e he
    have hmem : e.1 ∈ m := by
      rw [Std.ExtTreeMap.mem_iff_isSome_getElem?,
        Std.ExtTreeMap.mem_toList_iff_getElem?_eq_some.mp he]
      rfl
    simp only [readMember, hkey e.1 hmem, hread e.2, Option.bind_some, Option.map_some]
  rw [readMap, readAll_map m.toList hall, Option.map_some]

theorem readMap_written_self {κ α : Type} [Ord κ] [Std.TransOrd κ] [Std.LawfulEqOrd κ]
    [DecidableEq κ] {key : String → Option κ} {read : Json → Option α} {text : κ → String}
    {write : α → Json} {m : BTreeMap κ α} (hkey : ∀ k ∈ m, key (text k) = some k)
    (hread : ∀ value, read (write value) = some value) :
    readMap key read (object (m.toList.map (fun e => (text e.1, write e.2)))) = some m := by
  rw [readMap_written hkey hread, List.map_id', insertAll_toList]

theorem readVec_written {α : Type} {read : Json → Option α} {write : α → Json}
    (hread : ∀ a, read (write a) = some a) (l : List α) :
    readVec read (array (l.map write)) = some l := by
  have hl := readAll_map l (fun a _ => hread a)
  rwa [List.map_id'] at hl

theorem readU64_lt {value : Json} {n : ℕ} (h : readU64 value = some n) : n < 2 ^ 64 := by
  unfold readU64 at h
  split at h
  · next u =>
    obtain rfl := Option.some.inj h
    exact u.toNat_lt
  · cases h

theorem readU64_number {n : ℕ} (h : n < 2 ^ 64) :
    readU64 (number (some (UInt64.ofNat n))) = some n := by
  rw [readU64, UInt64.toNat_ofNat_of_lt' h]

theorem readOptional_u64 {field : Option Json} {n : ℕ} :
    readOptional readU64 field = some (some n) ↔ field.bind readU64 = some n := by
  cases field with
  | none => simp [readOptional]
  | some value => cases value <;> simp [readOptional, readU64]

end Json

section U64

/-- `checked_mul` by ten and `checked_add` of the digit, character by character. -/
def checkedDigits : List Char → ℕ → Option ℕ
  | [], acc => some acc
  | c :: rest, acc =>
    if c.isDigit then
      if 10 * acc + (c.toNat - '0'.toNat) < 2 ^ 64 then
        checkedDigits rest (10 * acc + (c.toNat - '0'.toNat))
      else none
    else none

/-- `str::parse::<u64>` -/
def parseU64 (text : String) : Option ℕ :=
  match text.toList with
  | [] => none
  | ['+'] => none
  | '+' :: digits => checkedDigits digits 0
  | digits => checkedDigits digits 0

theorem le_ofDigitChars (l : List Char) (acc : ℕ) : acc ≤ Nat.ofDigitChars 10 l acc := by
  induction l generalizing acc with
  | nil => rw [Nat.ofDigitChars_nil]
  | cons c rest ih =>
    rw [Nat.ofDigitChars_cons]
    have hrest := ih (10 * acc + (c.toNat - '0'.toNat))
    omega

/-- No partial value overflows unless the whole one does. -/
theorem checkedDigits_eq_some_iff {l : List Char} {acc n : ℕ} (hacc : acc < 2 ^ 64) :
    checkedDigits l acc = some n ↔
      (∀ c ∈ l, c.isDigit = true) ∧ Nat.ofDigitChars 10 l acc = n ∧ n < 2 ^ 64 := by
  induction l generalizing acc with
  | nil =>
    simp only [checkedDigits, Option.some.injEq, Nat.ofDigitChars_nil, List.not_mem_nil]
    constructor
    · rintro rfl
      exact ⟨fun c hc => hc.elim, rfl, hacc⟩
    · exact fun h => h.2.1
  | cons c rest ih =>
    rw [checkedDigits, Nat.ofDigitChars_cons, List.forall_mem_cons]
    by_cases hdigit : c.isDigit = true
    · rw [if_pos hdigit]
      by_cases hfits : 10 * acc + (c.toNat - '0'.toNat) < 2 ^ 64
      · rw [if_pos hfits, ih hfits]
        tauto
      · rw [if_neg hfits]
        have hle := le_ofDigitChars rest (10 * acc + (c.toNat - '0'.toNat))
        constructor
        · exact fun h => by cases h
        · rintro ⟨-, rfl, hlt⟩
          omega
    · rw [if_neg hdigit]
      constructor
      · exact fun h => by cases h
      · exact fun h => absurd h.1.1 hdigit

theorem parseU64_lt {text : String} {n : ℕ} (h : parseU64 text = some n) : n < 2 ^ 64 := by
  unfold parseU64 at h
  split at h
  · cases h
  · cases h
  · exact ((checkedDigits_eq_some_iff (by decide)).mp h).2.2
  · exact ((checkedDigits_eq_some_iff (by decide)).mp h).2.2

theorem parseU64_repr {n : ℕ} (h : n < 2 ^ 64) : parseU64 n.repr = some n := by
  have hdigits : checkedDigits (Nat.toDigits 10 n) 0 = some n := by
    refine (checkedDigits_eq_some_iff (by decide)).mpr ⟨?_, Nat.ofDigitChars_ten_toDigits, h⟩
    intro c hc
    exact Nat.isDigit_of_mem_toDigits (by decide) (by decide) hc
  unfold parseU64
  rw [Nat.toList_repr]
  have hplus : ∀ c ∈ Nat.toDigits 10 n, c ≠ '+' := by
    rintro c hc rfl
    exact absurd (Nat.isDigit_of_mem_toDigits (by decide) (by decide) hc) (by decide)
  split
  · next hnil => exact absurd hnil Nat.toDigits_ne_nil
  · next hsign => exact absurd rfl (hplus '+' (hsign ▸ List.mem_cons_self))
  · next hsign => exact absurd rfl (hplus '+' (hsign ▸ List.mem_cons_self))
  · exact hdigits

theorem entries_lt {α : Type} {read : Json → Option α} {value : Json} {k : ℕ} {a : α}
    (h : (k, a) ∈ value.entries parseU64 read) : k < 2 ^ 64 := by
  cases value with
  | object members =>
    obtain ⟨member, -, hmember⟩ := List.mem_filterMap.mp h
    obtain ⟨j, hj, hread⟩ := Option.bind_eq_some_iff.mp hmember
    obtain ⟨b, -, hpair⟩ := Option.map_eq_some_iff.mp hread
    cases hpair
    exact parseU64_lt hj
  | null => cases h
  | bool b => cases h
  | number asU64 => cases h
  | string text => cases h
  | array items => cases h

end U64

end RethGnosis
