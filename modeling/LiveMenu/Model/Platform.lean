import LiveMenu.Model.World

/-!
# The platform

What the services use of other packages and of the configuration: password hashing, JSON Web
Tokens, SHA-256, date functions of the server. Nothing is assumed of it here; a theorem that rests
on a property of one of them names it.
-/

namespace LiveMenu

/-- The payload of a JSON Web Token. Instants are in whole seconds. -/
structure Claims where
  sub : Uuid
  email : String
  type : String
  iat : ℤ
  nbf : ℤ
  exp : ℤ
  jti : Uuid
  deriving DecidableEq

structure Platform where
  /-- `str.lower`. -/
  strLower : String → String
  /-- `pwd_context.hash`, with the salt it draws. -/
  hashPassword : String → String → Except Exc String
  /-- `pwd_context.verify`. -/
  verifyPassword : String → String → Except Exc Bool
  /-- `jwt.encode` with the secret and algorithm of the settings. -/
  jwtEncode : Claims → String
  /-- The payload of a well-formed token with a good signature. -/
  jwtDecode : String → Option Claims
  /-- `hashlib.sha256(s.encode()).hexdigest()`. -/
  sha256 : String → Varchar 64
  /-- Lower case in the locale of the database. -/
  pgLower : Char → Char
  /-- `date_trunc(granularity, timestamp)`. -/
  dateTrunc : String → Time → Time
  /-- `extract(hour from timestamp)`. -/
  extractHour : Time → ℕ
  jwtAccessTtlMin : ℤ
  jwtRefreshTtlDays : ℤ
  ipHashSalt : String

/-- A `datetime` of a request: microseconds of its wall clock since year 1, and the UTC offset it
was written with, which stays with it under arithmetic. Without an offset it is taken in the time
zone of the host, which the container leaves at UTC. -/
structure PyDateTime where
  wall : ℤ
  offset : Option ℤ
  deriving DecidableEq

namespace PyDateTime

/-- One more than the last wall clock a `datetime` can show. -/
def limit : ℤ := Time.days 3652059

/-- 1970-01-01 as a wall clock. -/
def epoch : ℤ := Time.days 719162

/-- A `datetime` with the wall clock `wall`, if there is one. -/
def shift (dt : PyDateTime) (wall : ℤ) : Except Exc PyDateTime :=
  if 0 ≤ wall ∧ wall < limit then .ok { dt with wall := wall } else .error .overflow

/-- The instant sent to the server: `dt.astimezone(utc)`. Without an offset it looks one day
back for an earlier reading of the clock, so on the first day it fails; the driver sends the
first midnight as `-infinity` and does not ask. -/
def instant (dt : PyDateTime) : Except Exc Time :=
  if dt.offset = none ∧ 0 < dt.wall ∧ dt.wall < Time.days 1 then
    .error .overflow
  else do
    let utc ← dt.shift (dt.wall - dt.offset.getD 0)
    return utc.wall - epoch

end PyDateTime

/-! ### A platform to run on

Tokens without a key that decode to what was encoded, passwords in the clear, a hash that keeps the
first characters, and lower case for ASCII. -/

/-- Write fields so that they can be told apart: each character after a dot, each field ended by
a bar. -/
def writeFields (fields : List (List Char)) : List Char :=
  fields.flatMap fun f => f.flatMap (fun c => ['.', c]) ++ ['|']

/-- Read fields, with the field under way in reverse. -/
def readFields (field : List Char) : List Char → Option (List (List Char))
  | []            => if field.isEmpty then some [] else none
  | '.' :: c :: s => readFields (c :: field) s
  | '|' :: s      => (readFields [] s).map (field.reverse :: ·)
  | _             => none

/-- An integer as two naturals in decimal. -/
def writeInt (z : ℤ) : List (List Char) := [Nat.toDigits 10 z.toNat, Nat.toDigits 10 (-z).toNat]

def readNat (s : List Char) : ℕ := Nat.ofDigitChars 10 s 0

def readInt (s t : List Char) : ℤ := readNat s - readNat t

def Claims.encode (c : Claims) : String :=
  String.ofList (writeFields ([Nat.toDigits 10 c.jti.toNat, c.type.toList,
    Nat.toDigits 10 c.sub.toNat, c.email.toList] ++ writeInt c.iat ++ writeInt c.nbf ++
    writeInt c.exp))

def Claims.decode (token : String) : Option Claims :=
  match readFields [] token.toList with
  | some [jti, type, sub, email, i, i', n, n', e, e'] => some {
      sub := BitVec.ofNat 128 (readNat sub)
      email := String.ofList email
      type := String.ofList type
      iat := readInt i i'
      nbf := readInt n n'
      exp := readInt e e'
      jti := BitVec.ofNat 128 (readNat jti) }
  | _ => none

def Platform.plain : Platform where
  strLower := fun s => String.ofList (s.toList.map Char.toLower)
  hashPassword := fun salt password => .ok (salt ++ password)
  verifyPassword := fun password hash => .ok (hash.toList.drop (hash.length - password.length)
    == password.toList)
  jwtEncode := Claims.encode
  jwtDecode := Claims.decode
  sha256 := fun s => ⟨String.ofList ((s.toList.filter (· ≠ nul)).take 64), by
    refine ⟨by simp, fun h => ?_⟩
    rw [String.toList_ofList] at h
    simpa using (List.mem_filter.mp (List.mem_of_mem_take h)).2⟩
  pgLower := fun c => c
  dateTrunc := fun _ t => t
  extractHour := fun t => ((t / 3600000000) % 24).toNat
  jwtAccessTtlMin := 15
  jwtRefreshTtlDays := 7
  ipHashSalt := "salt"

lemma readFields_chars (f field s : List Char) :
    readFields field (f.flatMap (fun c => ['.', c]) ++ '|' :: s)
      = (readFields [] s).map ((field.reverse ++ f) :: ·) := by
  induction f generalizing field with
  | nil => simp [readFields]
  | cons c f ih =>
    simp only [List.flatMap_cons, List.cons_append, List.nil_append, readFields]
    rw [ih]
    simp

lemma readFields_writeFields (fields : List (List Char)) :
    readFields [] (writeFields fields) = some fields := by
  induction fields with
  | nil => rfl
  | cons f fields ih =>
    rw [writeFields] at ih ⊢
    rw [List.flatMap_cons, List.append_assoc, List.singleton_append, readFields_chars, ih]
    rfl

@[simp] lemma readNat_toDigits (n : ℕ) : readNat (Nat.toDigits 10 n) = n :=
  Nat.ofDigitChars_ten_toDigits

lemma readInt_writeInt (z : ℤ) :
    readInt (Nat.toDigits 10 z.toNat) (Nat.toDigits 10 (-z).toNat) = z := by
  rw [readInt, readNat_toDigits, readNat_toDigits]
  omega

lemma Claims.decode_encode (c : Claims) : Claims.decode c.encode = some c := by
  rw [decode, encode, String.toList_ofList, readFields_writeFields]
  simp only [writeInt, List.cons_append, List.nil_append, readInt_writeInt, readNat_toDigits,
    String.ofList_toList, BitVec.ofNat_toNat, BitVec.setWidth_eq]

lemma Platform.plain_jwtDecode (c : Claims) : plain.jwtDecode (plain.jwtEncode c) = some c := by
  simp only [plain]
  exact c.decode_encode

end LiveMenu
