import Mathlib.Data.List.Basic
import Mathlib.Tactic.Common

/-!
# HTML pages from escaped templates

A template is a list of pieces: static text, and expressions whose values are escaped when the
template is rendered. A reader of HTML goes through the rendered page character by character, tells
tags, attribute values and text apart, and decodes character references. Line ends it leaves alone,
where a browser makes LF of CR and CR LF. Where every expression stands in text or in a quoted
attribute value, the reader sees the static markup, with the values of the expressions as they are,
whatever characters they have.
-/

namespace Html

/-! ### Reading -/

/-- Where the reader is; in a character reference, with the characters read since the ampersand. -/
inductive Mode where
  | text
  | textRef (seen : List Char)
  | tag
  | value (quote : Char)
  | valueRef (quote : Char) (seen : List Char)
  deriving DecidableEq

/-- What the reader sees. -/
inductive Event where
  | char (c : Char)
  | tagStart
  | tagChar (c : Char)
  | tagEnd
  | valueStart
  | valueChar (c : Char)
  | valueEnd
  deriving DecidableEq

/-- The characters a reference stands for; an unknown one stands for itself. -/
def decode (seen : List Char) : List Char :=
  if seen = "amp".toList then ['&']
  else if seen = "lt".toList then ['<']
  else if seen = "gt".toList then ['>']
  else if seen = "#39".toList then ['\'']
  else if seen = "#34".toList ∨ seen = "quot".toList then ['"']
  else '&' :: seen ++ [';']

/-- A character in text. -/
def readText (c : Char) : Mode × List Event :=
  if c = '<' then (.tag, [.tagStart])
  else if c = '&' then (.textRef [], [])
  else (.text, [.char c])

/-- A character in a quoted value. -/
def readValue (quote c : Char) : Mode × List Event :=
  if c = quote then (.tag, [.valueEnd])
  else if c = '&' then (.valueRef quote [], [])
  else (.value quote, [.valueChar c])

/-- A character that can stand in a reference. -/
def isRefChar (c : Char) : Bool := c.isAlphanum || c = '#'

def step : Mode → Char → Mode × List Event
  | .text, c                => readText c
  | .textRef seen, c        =>
    if c = ';' then (.text, (decode seen).map .char)
    else if isRefChar c then (.textRef (seen ++ [c]), [])
    else ((readText c).1, ('&' :: seen).map .char ++ (readText c).2)
  | .tag, c                 =>
    if c = '>' then (.text, [.tagEnd])
    else if c = '"' ∨ c = '\'' then (.value c, [.valueStart])
    else (.tag, [.tagChar c])
  | .value quote, c         => readValue quote c
  | .valueRef quote seen, c =>
    if c = ';' then (.value quote, (decode seen).map .valueChar)
    else if isRefChar c then (.valueRef quote (seen ++ [c]), [])
    else ((readValue quote c).1, ('&' :: seen).map .valueChar ++ (readValue quote c).2)

/-- Read on from a mode. -/
def run : Mode → List Char → Mode × List Event
  | m, []      => (m, [])
  | m, c :: cs => ((run (step m c).1 cs).1, (step m c).2 ++ (run (step m c).1 cs).2)

/-- What a reader sees of a page. -/
def read (page : List Char) : List Event := (run .text page).2

lemma run_cons (m : Mode) (c : Char) (cs : List Char) :
    run m (c :: cs) = ((run (step m c).1 cs).1, (step m c).2 ++ (run (step m c).1 cs).2) := rfl

lemma run_append (m : Mode) (s s' : List Char) :
    run m (s ++ s') = ((run (run m s).1 s').1, (run m s).2 ++ (run (run m s).1 s').2) := by
  induction s generalizing m with
  | nil => rfl
  | cons c cs ih => rw [List.cons_append, run_cons, ih, run_cons, List.append_assoc]

/-! ### Escaping -/

/-- `markupsafe.escape`, for one character. -/
def escapeChar (c : Char) : List Char :=
  if c = '&' then "&amp;".toList
  else if c = '<' then "&lt;".toList
  else if c = '>' then "&gt;".toList
  else if c = '\'' then "&#39;".toList
  else if c = '"' then "&#34;".toList
  else [c]

def escape (s : List Char) : List Char := s.flatMap escapeChar

lemma run_escapeChar_text (c : Char) : run .text (escapeChar c) = (.text, [.char c]) := by
  by_cases hspecial : c = '&' ∨ c = '<' ∨ c = '>' ∨ c = '\'' ∨ c = '"'
  · obtain rfl | rfl | rfl | rfl | rfl := hspecial <;> decide +kernel
  · rw [not_or, not_or, not_or, not_or] at hspecial
    obtain ⟨hamp, hlt, hgt, hsingle, hdouble⟩ := hspecial
    rw [escapeChar, if_neg hamp, if_neg hlt, if_neg hgt, if_neg hsingle, if_neg hdouble, run_cons,
      step, readText, if_neg hlt, if_neg hamp]
    rfl

lemma run_escapeChar_value {quote : Char} (hq : quote = '"' ∨ quote = '\'') (c : Char) :
    run (.value quote) (escapeChar c) = (.value quote, [.valueChar c]) := by
  by_cases hspecial : c = '&' ∨ c = '<' ∨ c = '>' ∨ c = '\'' ∨ c = '"'
  · obtain rfl | rfl := hq
    · obtain rfl | rfl | rfl | rfl | rfl := hspecial <;> decide +kernel
    · obtain rfl | rfl | rfl | rfl | rfl := hspecial <;> decide +kernel
  · rw [not_or, not_or, not_or, not_or] at hspecial
    obtain ⟨hamp, hlt, hgt, hsingle, hdouble⟩ := hspecial
    have hquote : c ≠ quote := by
      rintro rfl
      exact hq.elim hdouble hsingle
    rw [escapeChar, if_neg hamp, if_neg hlt, if_neg hgt, if_neg hsingle, if_neg hdouble, run_cons,
      step, readValue, if_neg hquote, if_neg hamp]
    rfl

/-- An escaped text is read as it is. -/
lemma run_escape_text (s : List Char) : run .text (escape s) = (.text, s.map .char) := by
  induction s with
  | nil => rfl
  | cons c cs ih =>
    show run .text (escapeChar c ++ escape cs) = _
    rw [run_append, run_escapeChar_text, ih]
    rfl

/-- So is an escaped attribute value. -/
lemma run_escape_value {quote : Char} (hq : quote = '"' ∨ quote = '\'') (s : List Char) :
    run (.value quote) (escape s) = (.value quote, s.map .valueChar) := by
  induction s with
  | nil => rfl
  | cons c cs ih =>
    show run (.value quote) (escapeChar c ++ escape cs) = _
    rw [run_append, run_escapeChar_value hq, ih]
    rfl

/-- So is text without markup. -/
lemma run_plain {s : List Char} (h : ∀ c ∈ s, c ≠ '<' ∧ c ≠ '&') :
    run .text s = (.text, s.map .char) := by
  induction s with
  | nil => rfl
  | cons c cs ih =>
    obtain ⟨hlt, hamp⟩ := h c List.mem_cons_self
    rw [run_cons, step, readText, if_neg hlt, if_neg hamp,
      ih fun c' hc' => h c' (List.mem_cons_of_mem c hc')]
    rfl

/-! ### Templates -/

/-- A piece of a template: text of the template itself, or the value of an expression. -/
inductive Piece where
  | static (s : List Char)
  | value (s : List Char)

/-- Static text is written as it is, values are escaped. -/
def Piece.render : Piece → List Char
  | .static s => s
  | .value s  => escape s

def render (ps : List Piece) : List Char := ps.flatMap Piece.render

/-- How a value is meant to be read: as it is. -/
def valueEvents : Mode → List Char → List Event
  | .text, s => s.map .char
  | _, s     => s.map .valueChar

/-- The reading that the author of a template has in mind: markup comes from static text only. -/
def readPieces : Mode → List Piece → Mode × List Event
  | m, []              => (m, [])
  | m, .static s :: ps =>
    ((readPieces (run m s).1 ps).1, (run m s).2 ++ (readPieces (run m s).1 ps).2)
  | m, .value s :: ps  => ((readPieces m ps).1, valueEvents m s ++ (readPieces m ps).2)

/-- Escaping is enough in text and in quoted values. -/
def Mode.takesValue : Mode → Bool
  | .text        => true
  | .value quote => quote = '"' ∨ quote = '\''
  | _            => false

/-- Every expression stands where escaping is enough. -/
def safe : Mode → List Piece → Bool
  | _, []              => true
  | m, .static s :: ps => safe (run m s).1 ps
  | m, .value _ :: ps  => m.takesValue && safe m ps

lemma run_value {m : Mode} (hm : m.takesValue) (s : List Char) :
    run m (escape s) = (m, valueEvents m s) := by
  cases m with
  | text => exact run_escape_text s
  | value quote => exact run_escape_value (of_decide_eq_true hm) s
  | textRef | tag | valueRef => cases hm

/-- A page is read as its template means it. -/
theorem run_render {m : Mode} {ps : List Piece} (h : safe m ps) :
    run m (render ps) = readPieces m ps := by
  induction ps generalizing m with
  | nil => rfl
  | cons p ps ih =>
    rw [render, List.flatMap_cons, run_append, ← render]
    cases p with
    | static s => rw [Piece.render, ih h, readPieces]
    | value s =>
      rw [safe, Bool.and_eq_true] at h
      rw [Piece.render, run_value h.1, ih h.2, readPieces]

lemma readPieces_append (m : Mode) (ps qs : List Piece) :
    readPieces m (ps ++ qs)
      = ((readPieces (readPieces m ps).1 qs).1,
        (readPieces m ps).2 ++ (readPieces (readPieces m ps).1 qs).2) := by
  induction ps generalizing m with
  | nil => rfl
  | cons p ps ih =>
    cases p <;> simp only [List.cons_append, readPieces, ih, List.append_assoc]

lemma safe_append (m : Mode) (ps qs : List Piece) :
    safe m (ps ++ qs) = (safe m ps && safe (readPieces m ps).1 qs) := by
  induction ps generalizing m with
  | nil => rfl
  | cons p ps ih =>
    cases p <;> simp only [List.cons_append, safe, readPieces, ih, Bool.and_assoc]

/-! ### Markup -/

def Event.isMarkup : Event → Bool
  | .char _ | .valueChar _ => false
  | _                      => true

/-- The tags, with the names of their attributes. -/
def markup (es : List Event) : List Event := es.filter Event.isMarkup

lemma markup_append (es es' : List Event) : markup (es ++ es') = markup es ++ markup es' :=
  List.filter_append es es'

lemma markup_valueEvents (m : Mode) (s : List Char) : markup (valueEvents m s) = [] := by
  rw [markup, List.filter_eq_nil_iff]
  cases m <;> simp [valueEvents, Event.isMarkup]

/-- The same piece with an empty value. -/
def Piece.blank : Piece → Piece
  | .static s => .static s
  | .value _  => .value []

/-- The template without the values. -/
def skeleton (ps : List Piece) : List Piece := ps.map Piece.blank

@[simp] lemma skeleton_nil : skeleton [] = [] := rfl

@[simp] lemma skeleton_static (s : List Char) (ps : List Piece) :
    skeleton (.static s :: ps) = .static s :: skeleton ps := rfl

@[simp] lemma skeleton_value (s : List Char) (ps : List Piece) :
    skeleton (.value s :: ps) = .value [] :: skeleton ps := rfl

@[simp] lemma skeleton_append (ps qs : List Piece) :
    skeleton (ps ++ qs) = skeleton ps ++ skeleton qs := List.map_append

lemma skeleton_flatMap {ι : Type*} (f : ι → List Piece) (xs : List ι) :
    skeleton (xs.flatMap f) = xs.flatMap fun x => skeleton (f x) := List.map_flatMap

lemma markup_readPieces_skeleton (m : Mode) (ps : List Piece) :
    (readPieces m (skeleton ps)).1 = (readPieces m ps).1 ∧
      markup (readPieces m (skeleton ps)).2 = markup (readPieces m ps).2 := by
  induction ps generalizing m with
  | nil => exact ⟨rfl, rfl⟩
  | cons p ps ih =>
    cases p with
    | static s =>
      obtain ⟨hmode, hmarkup⟩ := ih (run m s).1
      rw [skeleton_static, readPieces, readPieces, markup_append, markup_append, hmarkup]
      exact ⟨hmode, rfl⟩
    | value s =>
      obtain ⟨hmode, hmarkup⟩ := ih m
      rw [skeleton_value, readPieces, readPieces, markup_append, markup_append,
        markup_valueEvents, markup_valueEvents, hmarkup]
      exact ⟨hmode, rfl⟩

/-- The markup of a page is that of its template, whatever the values are. -/
theorem markup_eq_of_skeleton {ps qs : List Piece} (hps : safe .text ps) (hqs : safe .text qs)
    (h : skeleton ps = skeleton qs) : markup (read (render ps)) = markup (read (render qs)) := by
  rw [read, read, run_render hps, run_render hqs, ← (markup_readPieces_skeleton .text ps).2, h,
    (markup_readPieces_skeleton .text qs).2]

/-! ### Elements -/

/-- Where the search for elements is: outside of them, in a tag that may open one, or in the text of
one. -/
inductive Seek where
  | outside
  | opening (tag : List Event)
  | inside (tag : List Event) (seen : List Char)
  deriving DecidableEq

/-- The search ends an element at the first tag in it, and gives its text. -/
def Seek.next (wanted : List (List Event)) :
    Seek → Event → Seek × List (List Event × List Char)
  | .outside, e             => (if e = .tagStart then .opening [.tagStart] else .outside, [])
  | .opening tag, e         =>
    if tag ++ [e] ∈ wanted then (.inside (tag ++ [e]) [], [])
    else if wanted.any (tag ++ [e]).isPrefixOf then (.opening (tag ++ [e]), [])
    else (.outside, [])
  | .inside tag seen, .char c => (.inside tag (seen ++ [c]), [])
  | .inside tag seen, e       =>
    (if e = .tagStart then .opening [.tagStart] else .outside, [(tag, seen)])

def seek (wanted : List (List Event)) :
    Seek → List Event → Seek × List (List Event × List Char)
  | q, []      => (q, [])
  | q, e :: es =>
    ((seek wanted (q.next wanted e).1 es).1,
      (q.next wanted e).2 ++ (seek wanted (q.next wanted e).1 es).2)

/-- The elements of a page that one of the wanted tags opens, with their texts, in the order of the
page. -/
def elements (wanted : List (List Event)) (page : List Char) : List (List Event × List Char) :=
  (seek wanted .outside (read page)).2

section

variable (wanted : List (List Event))

lemma seek_append (q : Seek) (es es' : List Event) :
    seek wanted q (es ++ es')
      = ((seek wanted (seek wanted q es).1 es').1,
        (seek wanted q es).2 ++ (seek wanted (seek wanted q es).1 es').2) := by
  induction es generalizing q with
  | nil => rfl
  | cons e es ih => simp only [List.cons_append, seek, ih, List.append_assoc]

lemma seek_chars (tag : List Event) (seen s : List Char) :
    seek wanted (.inside tag seen) (s.map .char) = (.inside tag (seen ++ s), []) := by
  induction s generalizing seen with
  | nil => rw [List.append_nil, List.map_nil, seek]
  | cons c cs ih => simp only [List.map_cons, seek, Seek.next, ih, List.append_assoc,
      List.singleton_append, List.nil_append]

lemma seek_valueEvents (m : Mode) (s : List Char) :
    seek wanted .outside (valueEvents m s) = (.outside, []) := by
  have hskip : ∀ es : List Event, Event.tagStart ∉ es →
      seek wanted .outside es = (.outside, []) := by
    intro es
    induction es with
    | nil => exact fun _ => rfl
    | cons e es ih =>
      intro h
      rw [List.mem_cons, not_or] at h
      rw [seek, Seek.next, if_neg (Ne.symm h.1), ih h.2, List.nil_append]
  apply hskip
  cases m <;> simp [valueEvents]

/-- A part of a template that is safe, closes what it opens, and has these elements. -/
structure Shows (ps : List Piece) (found : List (List Event × List Char)) : Prop where
  safe : safe .text ps
  ends : (readPieces .text ps).1 = .text
  found : seek wanted .outside (readPieces .text ps).2 = (.outside, found)

variable {wanted}

/-- What is shown is what a reader finds. -/
theorem Shows.elements {ps : List Piece} {found : List (List Event × List Char)}
    (h : Shows wanted ps found) : elements wanted (render ps) = found := by
  rw [Html.elements, read, run_render h.safe, h.found]

lemma Shows.nil : Shows wanted [] [] := ⟨rfl, rfl, rfl⟩

lemma Shows.append {ps qs : List Piece} {found found' : List (List Event × List Char)}
    (hp : Shows wanted ps found) (hq : Shows wanted qs found') :
    Shows wanted (ps ++ qs) (found ++ found') := by
  constructor
  · rw [safe_append, hp.ends, hp.safe, hq.safe, Bool.and_true]
  · rw [readPieces_append, hp.ends, hq.ends]
  · rw [readPieces_append, hp.ends, seek_append, hp.found, hq.found]

lemma Shows.after {ps qs : List Piece} {found : List (List Event × List Char)}
    (hq : Shows wanted qs found) (hp : Shows wanted ps []) : Shows wanted (ps ++ qs) found :=
  hp.append hq

lemma Shows.before {ps qs : List Piece} {found : List (List Event × List Char)}
    (hp : Shows wanted ps found) (hq : Shows wanted qs []) : Shows wanted (ps ++ qs) found := by
  rw [← List.append_nil found]
  exact hp.append hq

lemma Shows.flatMap {ι : Type*} {f : ι → List Piece} {g : ι → List (List Event × List Char)}
    {xs : List ι} (h : ∀ x, Shows wanted (f x) (g x)) :
    Shows wanted (xs.flatMap f) (xs.flatMap g) := by
  induction xs with
  | nil => exact .nil
  | cons x xs ih =>
    rw [List.flatMap_cons, List.flatMap_cons]
    exact (h x).append ih

lemma Shows.ite {c : Prop} [Decidable c] {ps qs : List Piece}
    {found : List (List Event × List Char)} (hp : c → Shows wanted ps found)
    (hq : ¬c → Shows wanted qs found) : Shows wanted (if c then ps else qs) found := by
  split_ifs with h
  · exact hp h
  · exact hq h

variable (wanted) in
/-- Nothing wanted is in these pieces, whatever the values are. -/
def quiet : Mode → Seek → List Piece → Bool
  | m, q, []              => m = .text ∧ q = .outside
  | m, q, .static s :: ps =>
    (seek wanted q (run m s).2).2.isEmpty &&
      quiet (run m s).1 (seek wanted q (run m s).2).1 ps
  | m, q, .value _ :: ps  => m.takesValue && q = .outside && quiet m q ps

lemma seek_of_quiet {m : Mode} {q : Seek} {ps : List Piece} (h : quiet wanted m q ps) :
    Html.safe m ps ∧ (readPieces m ps).1 = .text ∧
      seek wanted q (readPieces m ps).2 = (.outside, []) := by
  induction ps generalizing m q with
  | nil =>
    obtain ⟨rfl, rfl⟩ := of_decide_eq_true h
    exact ⟨rfl, rfl, rfl⟩
  | cons p ps ih =>
    cases p with
    | static s =>
      rw [quiet, Bool.and_eq_true, List.isEmpty_iff] at h
      obtain ⟨hsafe, hends, hfound⟩ := ih h.2
      refine ⟨hsafe, hends, ?_⟩
      rw [readPieces, seek_append, h.1, hfound, List.nil_append]
    | value s =>
      rw [quiet, Bool.and_eq_true, Bool.and_eq_true, decide_eq_true_eq] at h
      obtain ⟨⟨hm, rfl⟩, hq⟩ := h
      obtain ⟨hsafe, hends, hfound⟩ := ih hq
      refine ⟨by rw [Html.safe, hm, hsafe, Bool.and_true], hends, ?_⟩
      rw [readPieces, seek_append, seek_valueEvents, hfound, List.nil_append]

/-- Pieces around the elements. -/
lemma Shows.of_quiet {ps : List Piece} (h : quiet wanted .text .outside ps) :
    Shows wanted ps [] := by
  obtain ⟨hsafe, hends, hfound⟩ := seek_of_quiet h
  exact ⟨hsafe, hends, hfound⟩

lemma Shows.plain {s : List Char} (h : ∀ c ∈ s, c ≠ '<' ∧ c ≠ '&') :
    Shows wanted [.static s] [] := by
  constructor
  · rfl
  · rw [readPieces, run_plain h, readPieces]
  · rw [readPieces, run_plain h, readPieces, List.append_nil]
    exact seek_valueEvents wanted .text s

/-- The check is about the template, not about the values. -/
lemma quiet_skeleton (m : Mode) (q : Seek) (ps : List Piece) :
    quiet wanted m q (skeleton ps) = quiet wanted m q ps := by
  induction ps generalizing m q with
  | nil => rfl
  | cons p ps ih =>
    cases p with
    | static s => rw [skeleton_static, quiet, quiet, ih]
    | value s => rw [skeleton_value, quiet, quiet, ih]

variable (wanted) in
/-- A value between these texts is the end of the text of an element. -/
def Encloses (opening closing : List Char) (tag : List Event) (lead : List Char) : Prop :=
  (run .text opening).1 = .text ∧
    seek wanted .outside (run .text opening).2 = (.inside tag lead, []) ∧
    (run .text closing).1 = .text ∧
    (run .text closing).2.head? = some .tagStart ∧
    seek wanted .outside (run .text closing).2 = (.outside, [])
  deriving Decidable

lemma Shows.element {opening closing : List Char} {tag : List Event} {lead : List Char}
    (h : Encloses wanted opening closing tag lead) (s : List Char) :
    Shows wanted [.static opening, .value s, .static closing] [(tag, lead ++ s)] := by
  obtain ⟨hopen, hinside, hclose, hstart, houtside⟩ := h
  obtain ⟨rest, hrest⟩ := List.head?_eq_some_iff.mp hstart
  simp only [hrest, seek, Seek.next, if_true, List.nil_append, Prod.eta] at houtside
  constructor
  · simp only [Html.safe, hopen, Mode.takesValue, Bool.and_true]
  · simp only [readPieces, hopen, hclose]
  · simp only [readPieces, hopen, hrest, valueEvents, seek_append, hinside, seek_chars, seek,
      Seek.next, if_true, houtside, List.append_nil, List.nil_append]

end

end Html
