import Mathlib.Data.Rat.Defs
import Mathlib.Algebra.Order.Ring.Rat
import Mathlib.Tactic.Common
import Mathlib.Tactic.Linarith
import Mathlib.Tactic.NormNum

/-!
# Values and columns

The Python values a request carries and the column types that store them. A column type holds
only what PostgreSQL stores in it, so a row with an over-long name or an out-of-range price
cannot be built; the conversions `ofString`, `ofPy`, `ofDecimal`, `ofInt` are where a write fails.
A SELECT binds its values with the same conversions, since each is cast to the type of its column.
-/

namespace LiveMenu

/-- `uuid.UUID`: a 128-bit value. -/
abbrev Uuid := BitVec 128

instance : LawfulBEq Uuid := inferInstance

/-- An instant or a duration in microseconds, the resolution of `datetime` and `timestamptz`. -/
abbrev Time := ℤ

def Time.seconds (n : ℤ) : Time := n * 1000000
def Time.minutes (n : ℤ) : Time := Time.seconds (n * 60)
def Time.days (n : ℤ) : Time := Time.seconds (n * 86400)

/-- The code point PostgreSQL stores in no text value. -/
def nul : Char := Char.ofNat 0

/-- A code point of a Python `str`; a JSON escape can leave a lone surrogate in one. -/
inductive PyChar where
  | scalar (c : Char)
  | surrogate (n : Fin 2048)
  deriving DecidableEq

/-- A Python `str` that no length constraint has checked. -/
abbrev PyStr := List PyChar

def PyStr.ofString (s : String) : PyStr := s.toList.map .scalar

/-- The characters of a `str` that UTF-8 can encode. -/
def PyStr.encode : PyStr → Option (List Char)
  | []                    => some []
  | .scalar c :: s        => (PyStr.encode s).map (c :: ·)
  | .surrogate _ :: _     => none

def PyChar.storable : PyChar → Bool
  | .scalar c     => c != nul
  | .surrogate _  => false

/-- PostgreSQL stores the text: it is valid Unicode and has no NUL. -/
def PyStr.storable (s : PyStr) : Bool := s.all PyChar.storable

/-! ### Decimals -/

/-- A finite `decimal.Decimal` from zero on, `coefficient * 10 ^ exponent`. Its digits matter
besides its number: `5` and `5.000` have the same number and not the same places. -/
structure Decimal where
  coefficient : ℕ
  exponent : ℤ := 0
  deriving DecidableEq

namespace Decimal

variable (d : Decimal)

def digits : ℕ := (Nat.toDigits 10 d.coefficient).length

/-- The decimal places as they are written. -/
def places : ℕ := (-d.exponent).toNat

/-- `n / m` rounded to the nearest integer, ties to the even one. -/
def roundHalfEven (n m : ℕ) : ℕ :=
  if 2 * (n % m) < m ∨ 2 * (n % m) = m ∧ n / m % 2 = 0 then n / m else n / m + 1

/-- Rounded to the 28 digits of the default context, whose least exponent is -1000026. -/
def inContext : Decimal :=
  let exponent := max (d.digits + d.exponent - 28) (-1000026)
  if d.exponent < exponent then
    ⟨roundHalfEven d.coefficient (10 ^ (exponent - d.exponent).toNat), exponent⟩
  else d

/-- `normalize()` raises `Overflow`: the leading digit is over the greatest exponent. -/
def overflows : Bool := decide (999999 < d.inContext.digits + d.inContext.exponent - 1)

/-- `normalize()` rounds and drops the trailing zeros; at most `n` places are left. Where it
raises, pydantic takes the decimal as it is. -/
def NormalizedWithin (n : ℕ) : Prop :=
  if d.overflows then d.places ≤ n
  else 10 ^ (d.inContext.places - n) ∣ d.inContext.coefficient

instance (n : ℕ) : Decidable (d.NormalizedWithin n) :=
  inferInstanceAs (Decidable (if d.overflows then d.places ≤ n else _ ∣ _))

/-- The number in hundredths, rounded as PostgreSQL does: ties go up. -/
def hundredths : ℕ :=
  if d.exponent ≤ -2 then
    (2 * d.coefficient + 10 ^ (d.places - 2)) / (2 * 10 ^ (d.places - 2))
  else d.coefficient * 10 ^ (d.exponent + 2).toNat

/-- The driver sends 16383 places at most, and the server rounds to two places before it looks
at the size. -/
def FitsNumeric : Prop := d.places ≤ 16383 ∧ d.hundredths < 10000000000

instance : Decidable d.FitsNumeric := inferInstanceAs (Decidable (_ ∧ _))

end Decimal

/-! ### JSON values, as `json.loads` reads them -/

mutual

inductive Json where
  | null
  | bool (b : Bool)
  | number (q : ℚ)
  | nonFinite
  | str (s : PyStr)
  | arr (xs : JsonArray)
  | obj (kvs : JsonObject)
  deriving DecidableEq

inductive JsonArray where
  | nil
  | cons (x : Json) (xs : JsonArray)
  deriving DecidableEq

inductive JsonObject where
  | nil
  | cons (key : PyStr) (x : Json) (kvs : JsonObject)
  deriving DecidableEq

end

mutual

/-- What `jsonb` stores: `NaN` and the infinities are not JSON, and its strings are text. -/
def Json.storable : Json → Bool
  | .null       => true
  | .bool _     => true
  | .number _   => true
  | .nonFinite  => false
  | .str s      => PyStr.storable s
  | .arr xs     => xs.storable
  | .obj kvs    => kvs.storable

def JsonArray.storable : JsonArray → Bool
  | .nil        => true
  | .cons x xs  => x.storable && xs.storable

def JsonObject.storable : JsonObject → Bool
  | .nil          => true
  | .cons k x kvs => PyStr.storable k && x.storable && kvs.storable

end

/-- The value of a key of a `dict`. -/
def JsonObject.lookup (key : PyStr) : JsonObject → Option Json
  | .nil          => none
  | .cons k x kvs => if k = key then some x else kvs.lookup key

def JsonObject.length : JsonObject → ℕ
  | .nil          => 0
  | .cons _ _ kvs => kvs.length + 1

mutual

/-- `==` of Python: `True` is the number 1, and the keys of a `dict` are in no order. `NaN` is not
even equal to itself; which value is not finite is not kept. -/
def Json.pyEq : Json → Json → Bool
  | .null, .null          => true
  | .bool b, .bool b'     => b == b'
  | .bool b, .number q    => (if b then 1 else 0) == q
  | .number q, .bool b    => q == (if b then 1 else 0)
  | .number q, .number q' => q == q'
  | .str s, .str s'       => s == s'
  | .arr xs, .arr xs'     => xs.pyEq xs'
  | .obj kvs, .obj kvs'   => kvs.length == kvs'.length && kvs.pyLe kvs'
  | _, _                  => false

def JsonArray.pyEq : JsonArray → JsonArray → Bool
  | .nil, .nil                => true
  | .cons x xs, .cons x' xs'  => x.pyEq x' && xs.pyEq xs'
  | _, _                      => false

/-- Each key has an equal value in the other `dict`. -/
def JsonObject.pyLe : JsonObject → JsonObject → Bool
  | .nil, _            => true
  | .cons k x kvs, kvs' => (match kvs'.lookup k with | none => false | some x' => x.pyEq x') &&
      kvs.pyLe kvs'

end

/-- `==` of two `dict`s. -/
def JsonObject.pyEq (kvs kvs' : JsonObject) : Bool :=
  kvs.length == kvs'.length && kvs.pyLe kvs'

/-! ### Column types -/

/-- Errors of the database layer (driver, server and session). -/
inductive DbError where
  /-- A NOT NULL, UNIQUE or foreign key violation. -/
  | integrity
  /-- A value its column cannot hold. -/
  | data
  /-- An UPDATE whose row is gone. -/
  | stale
  /-- A refresh of an instance whose row is gone. -/
  | noInstance
  deriving DecidableEq

/-- `VARCHAR(n)`. -/
structure Varchar (n : ℕ) where
  val : String
  fits : val.length ≤ n ∧ nul ∉ val.toList
  deriving DecidableEq

/-- `TEXT`. -/
structure PgText where
  val : String
  fits : nul ∉ val.toList
  deriving DecidableEq

/-- `NUMERIC(10, 2)`. -/
structure Numeric where
  val : ℚ
  fits : (val * 100).den = 1 ∧ -100000000 < val ∧ val < 100000000
  deriving DecidableEq

/-- `INTEGER`: 32 bits. -/
structure PgInt where
  val : ℤ
  fits : -2147483648 ≤ val ∧ val ≤ 2147483647
  deriving DecidableEq

/-- `JSONB` of a Python `dict`. -/
structure Jsonb where
  val : JsonObject
  fits : val.storable = true
  deriving DecidableEq

def Varchar.ofString (n : ℕ) (s : String) : Except DbError (Varchar n) :=
  if h : s.length ≤ n ∧ nul ∉ s.toList then .ok ⟨s, h⟩ else .error .data

def PgText.ofString (s : String) : Except DbError PgText :=
  if h : nul ∉ s.toList then .ok ⟨s, h⟩ else .error .data

/-- The driver encodes the text as UTF-8, then the server refuses a NUL. -/
def PgText.ofPy (s : PyStr) : Except DbError PgText :=
  match s.encode with
  | some cs => PgText.ofString (String.ofList cs)
  | none    => .error .data

/-- `n` hundredths. -/
def Numeric.ofHundredths (n : ℕ) (h : n < 10000000000) : Numeric where
  val := n / 100
  fits := by
    have hlt : (n : ℚ) < 10000000000 := by exact_mod_cast h
    have hnonneg : (0 : ℚ) ≤ n := Nat.cast_nonneg n
    refine ⟨?_, ?_, ?_⟩
    · rw [div_mul_cancel₀ _ (by norm_num)]
      exact Rat.den_natCast n
    · linarith [div_nonneg hnonneg (by norm_num : (0 : ℚ) ≤ 100)]
    · rw [div_lt_iff₀ (by norm_num)]
      linarith

def Numeric.ofDecimal (d : Decimal) : Except DbError Numeric :=
  if h : d.FitsNumeric then .ok (Numeric.ofHundredths d.hundredths h.2) else .error .data

/-- A bound BIGINT: 64 bits. -/
def bindBigInt (n : ℕ) : Except DbError ℕ :=
  if n < 2 ^ 63 then .ok n else .error .data

def PgInt.ofInt (z : ℤ) : Except DbError PgInt :=
  if h : -2147483648 ≤ z ∧ z ≤ 2147483647 then .ok ⟨z, h⟩ else .error .data

def Jsonb.ofJson (j : JsonObject) : Except DbError Jsonb :=
  if h : j.storable = true then .ok ⟨j, h⟩ else .error .data

/-- Convert a nullable value. -/
def nullable {α β : Type} (f : α → Except DbError β) : Option α → Except DbError (Option β)
  | none   => .ok none
  | some a => (f a).map some

/-- Convert a value of a NOT NULL column. -/
def notNull {α β : Type} (f : α → Except DbError β) : Option α → Except DbError β
  | none   => .error .integrity
  | some a => f a

/-- Convert the elements of an array. -/
def array {α β : Type} (f : α → Except DbError β) : List α → Except DbError (List β)
  | []      => .ok []
  | a :: as => do
    let b ← f a
    let bs ← array f as
    return b :: bs

/-! ### What a conversion stores, and when it succeeds -/

lemma Varchar.eq_of_val {n : ℕ} {v v' : Varchar n} (h : v.val = v'.val) : v = v' := by
  cases v
  cases v'
  cases h
  rfl

lemma PgText.mk_eq_iff {v : PgText} {s : String} {h : nul ∉ s.toList} :
    v = ⟨s, h⟩ ↔ v.val = s := by
  obtain ⟨s', h'⟩ := v
  exact PgText.mk.injEq .. ▸ Iff.rfl

lemma Varchar.val_of_ofString {n : ℕ} {s : String} {v : Varchar n}
    (h : Varchar.ofString n s = .ok v) : v.val = s := by
  rw [ofString] at h
  split_ifs at h
  cases h
  rfl

lemma PgText.val_of_ofString {s : String} {v : PgText} (h : PgText.ofString s = .ok v) :
    v.val = s := by
  rw [ofString] at h
  split_ifs at h
  cases h
  rfl

lemma PgInt.val_of_ofInt {z : ℤ} {v : PgInt} (h : PgInt.ofInt z = .ok v) : v.val = z := by
  rw [ofInt] at h
  split_ifs at h
  cases h
  rfl

lemma Varchar.ofString_isOk {n : ℕ} {s : String} :
    (∃ v, Varchar.ofString n s = .ok v) ↔ s.length ≤ n ∧ nul ∉ s.toList := by
  rw [Varchar.ofString]
  split_ifs with h <;> simp [h]

lemma PgText.ofString_isOk {s : String} :
    (∃ v, PgText.ofString s = .ok v) ↔ nul ∉ s.toList := by
  rw [PgText.ofString]
  split_ifs with h <;> simp [h]

lemma PyStr.encode_eq_some {s : PyStr} {cs : List Char} :
    s.encode = some cs ↔ s = cs.map .scalar := by
  induction s generalizing cs with
  | nil => cases cs <;> simp [encode]
  | cons c s ih =>
    cases c with
    | scalar a =>
      simp only [encode, Option.map_eq_some_iff, ih]
      constructor
      · rintro ⟨ds, rfl, rfl⟩
        rfl
      · intro h
        cases cs with
        | nil => simp at h
        | cons d ds =>
          simp only [List.map_cons, List.cons.injEq, PyChar.scalar.injEq] at h
          exact ⟨ds, h.2, by rw [h.1]⟩
    | surrogate n => cases cs <;> simp [encode]

lemma PyStr.encode_ofString (s : String) : (PyStr.ofString s).encode = some s.toList :=
  PyStr.encode_eq_some.mpr rfl

lemma PyStr.encode_eq_none {s : PyStr} (h : s.encode = none) : s.storable = false := by
  induction s with
  | nil => cases h
  | cons c s ih =>
    cases c with
    | scalar a =>
      rw [encode, Option.map_eq_none_iff] at h
      simp only [storable, List.all_cons, Bool.and_eq_false_iff]
      exact .inr (ih h)
    | surrogate n => simp [storable, PyChar.storable]

lemma PgText.ofPy_isOk {s : PyStr} : (∃ v, PgText.ofPy s = .ok v) ↔ s.storable = true := by
  rw [PgText.ofPy]
  cases h : s.encode with
  | none => simp [PyStr.encode_eq_none h]
  | some cs =>
    rw [PyStr.encode_eq_some] at h
    subst h
    simp only [PgText.ofString_isOk, String.toList_ofList, PyStr.storable, List.all_map,
      List.all_eq_true, Function.comp_apply, PyChar.storable, bne_iff_ne]
    exact ⟨fun hn a ha hna => hn (hna ▸ ha), fun hs hn => hs nul hn rfl⟩

lemma Numeric.ofDecimal_isOk {d : Decimal} :
    (∃ v, Numeric.ofDecimal d = .ok v) ↔ d.FitsNumeric := by
  rw [Numeric.ofDecimal]
  split_ifs with h <;> simp [h]

lemma PgInt.ofInt_isOk {z : ℤ} :
    (∃ v, PgInt.ofInt z = .ok v) ↔ -2147483648 ≤ z ∧ z ≤ 2147483647 := by
  rw [PgInt.ofInt]
  split_ifs with h <;> simp [h]

lemma Jsonb.ofJson_isOk {j : JsonObject} :
    (∃ v, Jsonb.ofJson j = .ok v) ↔ j.storable = true := by
  rw [Jsonb.ofJson]
  split_ifs with h <;> simp [h]

end LiveMenu
