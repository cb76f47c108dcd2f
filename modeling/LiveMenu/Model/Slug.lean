import LiveMenu.Model.Values

/-!
# Slugs

`generate_slug` and the suffixes that make a slug unique.
-/

namespace LiveMenu

/-- `str.lower` of one character, as far as `generate_slug` can tell. Two characters outside
ASCII have an ASCII letter in their lowercase; of all others the lowercase stays outside ASCII
and is deleted two passes later, so they are left as they are. -/
def lowerChar (c : Char) : List Char :=
  if c = 'İ' then ['i', Char.ofNat 0x307]
  else if c = Char.ofNat 0x212A then ['k']
  else if 'A' ≤ c ∧ c ≤ 'Z' then [Char.ofNat (c.toNat + 32)]
  else [c]

def lower (s : List Char) : List Char := s.flatMap lowerChar

/-- `[a-z0-9\-.]`. -/
def isSlugChar (c : Char) : Bool :=
  ('a' ≤ c && c ≤ 'z') || ('0' ≤ c && c ≤ '9') || c == '-' || c == '.'

/-- `re.sub(r"-+", "-", s)`. -/
def collapseHyphens : List Char → List Char
  | []      => []
  | c :: s  =>
    if c = '-' ∧ s.head? = some '-' then collapseHyphens s else c :: collapseHyphens s

/-- `s.rstrip("-")`. -/
def rstripHyphens (s : List Char) : List Char := (s.reverse.dropWhile (· = '-')).reverse

/-- `s.strip("-")`. -/
def stripHyphens (s : List Char) : List Char := rstripHyphens (s.dropWhile (· = '-'))

/-- `generate_slug`. -/
def generateSlug (text : String) (maxLength : ℕ := 100) : String :=
  let slug := lower text.toList
  let slug := slug.map fun c => if c = ' ' ∨ c = '_' then '-' else c
  let slug := slug.filter isSlugChar
  let slug := collapseHyphens slug
  let slug := stripHyphens slug
  String.ofList (if slug.length > maxLength then rstripHyphens (slug.take maxLength) else slug)

/-- `f"{base_slug}-{counter}"`. -/
def suffixed (baseSlug : String) (counter : ℕ) : String := baseSlug ++ "-" ++ toString counter

example : generateSlug "La  Casa_de Pépé!" = "la-casa-de-pp" := by decide
example : generateSlug "日本" = "" := by decide

end LiveMenu
