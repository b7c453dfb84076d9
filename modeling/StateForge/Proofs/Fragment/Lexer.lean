import StateForge.Proofs.Acceptance

/-!
# The tokens of a C source

Generated sources use a small fragment of C. This file and its neighbours give that fragment a
meaning of its own, which knows nothing of state machines: here the lines of a source are cut into
tokens, in `Fragment.Parser` the tokens become a program, and in `Fragment.Execution` the program
runs.

The lexer is a machine that reads one byte at a time. Its `Mode` is all that it remembers, so what
it makes of a text followed by another is what it makes of the two in turn (`scan_append`), and a
line is dealt with piece by piece: the fixed pieces by evaluation, the names by `scan_name`.

* A line that starts with `#` is a directive. Directives are the business of the preprocessor and
  leave no tokens. Nothing is known of macros: a name that a directive defines, such as the one that
  guards a header, is an ordinary name everywhere else.
* `//` hides the rest of a line and `/*` hides everything up to the next `*/`, also across lines.
* A word that is a keyword of C or C++, but not one of the fragment, is an error, as is every byte
  that the fragment has no use for.
-/

set_option autoImplicit false

namespace StateForge
namespace Fragment

/-- A token. Each keyword is a token of its own, so a `name` is never a keyword. -/
inductive Token where
  | name (w : Text)
  | voidWord | boolWord | enumWord | externWord | staticWord
  | switchWord | caseWord | breakWord | ifWord | elseWord
  | openParen | closeParen | openBrace | closeBrace
  | semicolon | colon | comma | assign | notEqual | bang
deriving DecidableEq

namespace Token

/-- The keywords of the fragment. -/
def keywords : List (String × Token) :=
  [("void", voidWord), ("bool", boolWord), ("enum", enumWord), ("extern", externWord),
   ("static", staticWord), ("switch", switchWord), ("case", caseWord), ("break", breakWord),
   ("if", ifWord), ("else", elseWord)]

/-- Keywords of C and of C++ that the fragment has no use for. These are all of C99 but `_Bool`,
`_Complex` and `_Imaginary`, and the most common ones of C++. The fragment takes any other word as a
name, also those that only a later or a larger language keeps for itself, such as `explicit`. -/
def otherKeywords : List String :=
  ["auto", "char", "const", "continue", "default", "do", "double", "float", "for", "goto", "inline",
   "int", "long", "register", "restrict", "return", "short", "signed", "sizeof", "struct",
   "typedef", "union", "unsigned", "volatile", "while",
   "catch", "class", "delete", "false", "friend", "namespace", "new", "nullptr", "operator",
   "private", "protected", "public", "template", "this", "throw", "true", "try", "typename",
   "using", "virtual"]

/-- The token that a word is. -/
def ofWord? (w : Text) : Option Token :=
  match keywords.find? fun k => Text.ofString k.1 == w with
  | some k => some k.2
  | none => if w.isIdentifier && w ∉ otherKeywords.map Text.ofString then some (name w) else none

/-- The tokens of one byte, apart from the exclamation mark, which may begin a longer one. -/
def marks : List (UInt8 × Token) :=
  [(0x28, openParen), (0x29, closeParen), (0x7b, openBrace), (0x7d, closeBrace),
   (0x3b, semicolon), (0x3a, colon), (0x2c, comma), (0x3d, assign)]

/-- No name that validation lets through is one of these keywords. -/
theorem keywords_subset_reservedWords :
    keywords.map Prod.fst ++ otherKeywords ⊆ reservedWords := by
  decide

theorem ofWord?_of_isUsable {w : Text} (h : w.IsUsable) : ofWord? w = some (name w) := by
  have hkeyword : ∀ k ∈ keywords.map Prod.fst ++ otherKeywords, Text.ofString k ≠ w := by
    rintro k hk rfl
    exact h.unreserved (List.mem_map_of_mem (keywords_subset_reservedWords hk))
  have hfind : (keywords.find? fun k => Text.ofString k.1 == w) = none := by
    rw [List.find?_eq_none]
    intro k hk heq
    exact hkeyword k.1 (List.mem_append_left _ (List.mem_map_of_mem hk)) (beq_iff_eq.mp heq)
  have hother : w ∉ otherKeywords.map Text.ofString := by
    rw [List.mem_map]
    rintro ⟨k, hk, heq⟩
    exact hkeyword k (List.mem_append_right _ hk) heq
  rw [ofWord?, hfind]
  simp only [h.identifier, hother, not_false_eq_true, decide_true, Bool.and_self, if_true]

end Token

/-! ## The machine -/

/-- What the lexer remembers of the bytes before. -/
inductive Mode where
  /-- Nothing but blanks on this line so far. -/
  | lineStart
  /-- Between two tokens. -/
  | code
  /-- After the beginning of a word. -/
  | word (w : Text)
  /-- After an exclamation mark, which is one token or the first half of another. -/
  | bang
  /-- After a slash, which must begin a comment. -/
  | slash
  | lineComment
  | directive
  | blockComment
  /-- In a block comment, after an asterisk. -/
  | blockStar
deriving DecidableEq

namespace Mode

/-- Spaces and tabs. -/
def isBlankByte (b : UInt8) : Bool :=
  b == 0x20 || b == 0x09

/-- A byte that stands between two tokens, or begins one. -/
def fresh (b : UInt8) : Option (Mode × List Token) :=
  if isBlankByte b then some (code, [])
  else if isIdentifierStart b then some (word [b], [])
  else if b = 0x21 then some (bang, [])
  else if b = 0x2f then some (slash, [])
  else (Token.marks.lookup b).map fun t => (code, [t])

/-- Puts a token in front of those that were read. -/
def emit (t : Token) (r : Option (Mode × List Token)) : Option (Mode × List Token) :=
  r.map fun r => (r.1, t :: r.2)

/-- One byte of a line. Directives are skipped and macros are not expanded, so what holds of the
tokens of a source holds of the compiled program only if no name in it is that of a macro. -/
def step : Mode → UInt8 → Option (Mode × List Token)
  | lineStart, b =>
    if isBlankByte b then some (lineStart, [])
    else if b = 0x23 then some (directive, [])
    else fresh b
  | code, b => fresh b
  | word w, b =>
    if isIdentifierPart b then some (word (w ++ [b]), [])
    else (Token.ofWord? w).bind fun t => emit t (fresh b)
  | bang, b => if b = 0x3d then some (code, [.notEqual]) else emit .bang (fresh b)
  | slash, b =>
    if b = 0x2f then some (lineComment, [])
    else if b = 0x2a then some (blockComment, [])
    else none
  | lineComment, _ => some (lineComment, [])
  | directive, _ => some (directive, [])
  | blockComment, b => some (if b = 0x2a then blockStar else blockComment, [])
  | blockStar, b =>
    some (if b = 0x2f then code else if b = 0x2a then blockStar else blockComment, [])

/-- The end of a line. -/
def endLine : Mode → Option (Mode × List Token)
  | lineStart => some (lineStart, [])
  | code => some (lineStart, [])
  | word w => (Token.ofWord? w).map fun t => (lineStart, [t])
  | bang => some (lineStart, [.bang])
  | slash => none
  | lineComment => some (lineStart, [])
  | directive => some (lineStart, [])
  | blockComment => some (blockComment, [])
  | blockStar => some (blockComment, [])

end Mode

/-- What the lexer makes of a piece of a line. -/
def scan : Mode → Text → Option (Mode × List Token)
  | q, [] => some (q, [])
  | q, b :: rest =>
    (q.step b).bind fun r => (scan r.1 rest).map fun r' => (r'.1, r.2 ++ r'.2)

/-- What the lexer makes of a line. -/
def scanLine (q : Mode) (line : Text) : Option (Mode × List Token) :=
  (scan q line).bind fun r => r.1.endLine.map fun r' => (r'.1, r.2 ++ r'.2)

/-- What the lexer makes of some lines. -/
def scanLines : Mode → List Text → Option (Mode × List Token)
  | q, [] => some (q, [])
  | q, line :: rest =>
    (scanLine q line).bind fun r => (scanLines r.1 rest).map fun r' => (r'.1, r.2 ++ r'.2)

/-- The tokens of a source. A comment that is still open at its end is an error. -/
def tokenize (lines : List Text) : Option (List Token) :=
  (scanLines .lineStart lines).bind fun r => if r.1 = .lineStart then some r.2 else none

/-! ## Piece by piece -/

theorem scan_append {q q' q'' : Mode} {s t : Text} {ts us : List Token}
    (hs : scan q s = some (q', ts)) (ht : scan q' t = some (q'', us)) :
    scan q (s ++ t) = some (q'', ts ++ us) := by
  induction s generalizing q ts with
  | nil =>
    simp only [scan, Option.some.injEq, Prod.mk.injEq] at hs
    obtain ⟨rfl, rfl⟩ := hs
    exact ht
  | cons b rest ih =>
    rw [scan, Option.bind_eq_some_iff] at hs
    obtain ⟨r, hstep, hrest⟩ := hs
    rw [Option.map_eq_some_iff] at hrest
    obtain ⟨r', hscan, heq⟩ := hrest
    cases heq
    rw [List.cons_append, scan, hstep, Option.bind_some, ih hscan, Option.map_some,
      List.append_assoc]

theorem scanLine_of_scan {q q' q'' : Mode} {line : Text} {ts us : List Token}
    (hs : scan q line = some (q', ts)) (he : q'.endLine = some (q'', us)) :
    scanLine q line = some (q'', ts ++ us) := by
  rw [scanLine, hs, Option.bind_some, he, Option.map_some]

theorem scanLine_append {q q' q'' : Mode} {s t : Text} {ts us : List Token}
    (hs : scan q s = some (q', ts)) (ht : scanLine q' t = some (q'', us)) :
    scanLine q (s ++ t) = some (q'', ts ++ us) := by
  rw [scanLine, Option.bind_eq_some_iff] at ht
  obtain ⟨r, hscan, hend⟩ := ht
  rw [Option.map_eq_some_iff] at hend
  obtain ⟨r', hend, heq⟩ := hend
  cases heq
  rw [scanLine_of_scan (scan_append hs hscan) hend, List.append_assoc]

theorem scanLines_cons {q q' q'' : Mode} {line : Text} {rest : List Text} {ts us : List Token}
    (hl : scanLine q line = some (q', ts)) (hr : scanLines q' rest = some (q'', us)) :
    scanLines q (line :: rest) = some (q'', ts ++ us) := by
  rw [scanLines, hl, Option.bind_some, hr, Option.map_some]

theorem scanLines_append {q q' q'' : Mode} {ls ls' : List Text} {ts us : List Token}
    (h : scanLines q ls = some (q', ts)) (h' : scanLines q' ls' = some (q'', us)) :
    scanLines q (ls ++ ls') = some (q'', ts ++ us) := by
  induction ls generalizing q ts with
  | nil =>
    simp only [scanLines, Option.some.injEq, Prod.mk.injEq] at h
    obtain ⟨rfl, rfl⟩ := h
    exact h'
  | cons line rest ih =>
    rw [scanLines, Option.bind_eq_some_iff] at h
    obtain ⟨r, hline, hrest⟩ := h
    rw [Option.map_eq_some_iff] at hrest
    obtain ⟨r', hscan, heq⟩ := hrest
    cases heq
    rw [List.cons_append, scanLines_cons hline (ih hscan), List.append_assoc]

/-- An empty line between others leaves no trace. -/
theorem scanLines_blank {q : Mode} {rest : List Text} {ts : List Token}
    (h : scanLines .lineStart rest = some (q, ts)) :
    scanLines .lineStart ([] :: rest) = some (q, ts) :=
  scanLines_cons (rfl : scanLine .lineStart [] = some (.lineStart, [])) h

/-- Lines that come from the elements of a list, each of which starts and ends between lines. -/
theorem scanLines_flatMap {α : Type} {f : α → List Text} {g : α → List Token} {l : List α}
    (h : ∀ a ∈ l, scanLines .lineStart (f a) = some (.lineStart, g a)) :
    scanLines .lineStart (l.flatMap f) = some (.lineStart, l.flatMap g) := by
  induction l with
  | nil => rfl
  | cons a rest ih =>
    rw [List.flatMap_cons, List.flatMap_cons]
    exact scanLines_append (h a (by simp)) (ih fun b hb => h b (List.mem_cons_of_mem _ hb))

theorem tokenize_of_scanLines {lines : List Text} {ts : List Token}
    (h : scanLines .lineStart lines = some (.lineStart, ts)) : tokenize lines = some ts := by
  rw [tokenize, h, Option.bind_some, if_pos rfl]

/-! ## Names -/

/-- A word goes on as long as the bytes may stand in an identifier. -/
theorem scan_word (v : Text) {w : Text} (h : ∀ b ∈ w, isIdentifierPart b = true) :
    scan (.word v) w = some (.word (v ++ w), []) := by
  induction w generalizing v with
  | nil => simp [scan]
  | cons b rest ih =>
    rw [scan, Mode.step, if_pos (h b (by simp)), Option.bind_some,
      ih (v ++ [b]) fun c hc => h c (List.mem_cons_of_mem _ hc)]
    simp

/-- A byte that may begin an identifier is no blank. -/
theorem isBlankByte_of_isIdentifierStart {b : UInt8} (h : isIdentifierStart b = true) :
    Mode.isBlankByte b = false := by
  rw [Mode.isBlankByte, Bool.or_eq_false_iff, beq_eq_false_iff_ne, beq_eq_false_iff_ne]
  constructor
  · rintro rfl; exact absurd h (by decide)
  · rintro rfl; exact absurd h (by decide)

theorem fresh_of_isIdentifierStart {b : UInt8} (h : isIdentifierStart b = true) :
    Mode.fresh b = some (.word [b], []) := by
  rw [Mode.fresh, if_neg (by simp [isBlankByte_of_isIdentifierStart h]), if_pos h]

/-- The first byte of a name begins a word. -/
theorem scan_fresh_name {q : Mode} {ts : List Token} {w : Text} (h : w.IsUsable)
    (hq : ∀ b, isIdentifierStart b = true → q.step b = some (.word [b], ts)) :
    scan q w = some (.word w, ts) := by
  have hid := h.identifier
  cases w with
  | nil => exact absurd hid (by simp [Text.isIdentifier])
  | cons b rest =>
    rw [Text.isIdentifier, Bool.and_eq_true, List.all_eq_true] at hid
    rw [scan, hq b hid.1, Option.bind_some, scan_word [b] hid.2]
    simp

/-- A name begins a word between two tokens, and also where a line has only blanks so far. -/
theorem scan_name {w : Text} (h : w.IsUsable) {q : Mode} (hq : q = .code ∨ q = .lineStart) :
    scan q w = some (.word w, []) := by
  refine scan_fresh_name h fun b hb => ?_
  rcases hq with rfl | rfl
  · exact fresh_of_isIdentifierStart hb
  · have hne : b ≠ 0x23 := by rintro rfl; exact absurd hb (by decide)
    rw [Mode.step, if_neg (by simp [isBlankByte_of_isIdentifierStart hb]), if_neg hne,
      fresh_of_isIdentifierStart hb]

theorem scan_negated_name {w : Text} (h : w.IsUsable) :
    scan .bang w = some (.word w, [.bang]) := by
  refine scan_fresh_name h fun b hb => ?_
  have hne : b ≠ 0x3d := by rintro rfl; exact absurd hb (by decide)
  rw [Mode.step, if_neg hne, fresh_of_isIdentifierStart hb]
  rfl

/-- A name ends where a piece starts that cannot belong to it. What the piece itself gives is known
by evaluation: it is what it gives between tokens. -/
theorem scan_after_name {w : Text} (h : w.IsUsable) {b : UInt8} {rest : Text} {q : Mode}
    {ts : List Token} (hb : isIdentifierPart b = false)
    (hrest : scan .code (b :: rest) = some (q, ts)) :
    scan (.word w) (b :: rest) = some (q, .name w :: ts) := by
  rw [scan, Mode.step] at hrest
  rw [scan, Mode.step, if_neg (by simp [hb]), Token.ofWord?_of_isUsable h, Option.bind_some]
  cases hf : Mode.fresh b with
  | none => rw [hf] at hrest; exact absurd hrest (by simp)
  | some r =>
    rw [hf, Option.bind_some, Option.map_eq_some_iff] at hrest
    obtain ⟨r', hscan, heq⟩ := hrest
    cases heq
    rw [Mode.emit, Option.map_some, Option.bind_some, hscan, Option.map_some, List.cons_append]

/-- **A line around a name**: fixed text, a name, and fixed text that cannot belong to the name. -/
theorem scanLine_around_name (ts us : List Token) {w lead tail : Text} (h : w.IsUsable) {q : Mode}
    (hlead : scan .lineStart lead = some (q, ts)) (hq : q = .code ∨ q = .lineStart)
    (htail : tail.head?.map isIdentifierPart = some false)
    (hscan : scan .code tail = some (.code, us)) :
    scanLine .lineStart (lead ++ w ++ tail) = some (.lineStart, ts ++ .name w :: us) := by
  cases tail with
  | nil => exact absurd htail (by simp)
  | cons b rest =>
    have hb : isIdentifierPart b = false := by simpa using htail
    have hw := scan_append hlead (scan_name h hq)
    rw [List.append_nil] at hw
    have hall := scan_append hw (scan_after_name h hb hscan)
    rw [scanLine_of_scan hall rfl, List.append_nil]

/-! ## Directives and comments -/

theorem scan_directive (s : Text) : scan .directive s = some (.directive, []) := by
  induction s with
  | nil => rfl
  | cons b rest ih => rw [scan, Mode.step, Option.bind_some, ih]; rfl

/-- A directive leaves no tokens. -/
theorem scanLine_directive (s : Text) :
    scanLine .lineStart (0x23 :: s) = some (.lineStart, []) := by
  have hscan : scan .lineStart (0x23 :: s) = some (.directive, []) := by
    rw [scan, show Mode.lineStart.step 0x23 = some (.directive, []) from rfl, Option.bind_some,
      scan_directive]
    rfl
  exact scanLine_of_scan hscan rfl

/-- Without a slash a block comment goes on. -/
theorem scan_blockComment {s : Text} (h : 0x2f ∉ s) {q : Mode}
    (hq : q = .blockComment ∨ q = .blockStar) :
    ∃ q', (q' = .blockComment ∨ q' = .blockStar) ∧ scan q s = some (q', []) := by
  induction s generalizing q with
  | nil => exact ⟨q, hq, rfl⟩
  | cons b rest ih =>
    have hb : b ≠ 0x2f := fun hb => h (by simp [hb])
    obtain ⟨p, hp, hstep⟩ :
        ∃ p, (p = .blockComment ∨ p = .blockStar) ∧ q.step b = some (p, []) := by
      rcases hq with rfl | rfl
      · by_cases hs : b = 0x2a
        · exact ⟨.blockStar, .inr rfl, by simp [Mode.step, hs]⟩
        · exact ⟨.blockComment, .inl rfl, by simp [Mode.step, hs]⟩
      · by_cases hs : b = 0x2a
        · exact ⟨.blockStar, .inr rfl, by simp [Mode.step, hs]⟩
        · exact ⟨.blockComment, .inl rfl, by simp [Mode.step, hs, hb]⟩
    obtain ⟨q', hq', hscan⟩ := ih (fun hmem => h (List.mem_cons_of_mem _ hmem)) hp
    refine ⟨q', hq', ?_⟩
    rw [scan, hstep, Option.bind_some, hscan]
    rfl

/-- A line without a slash stays inside a block comment. -/
theorem scanLine_blockComment {s : Text} (h : 0x2f ∉ s) :
    scanLine .blockComment s = some (.blockComment, []) := by
  obtain ⟨q, hq, hscan⟩ := scan_blockComment h (.inl rfl)
  have hend : q.endLine = some (.blockComment, []) := by rcases hq with rfl | rfl <;> rfl
  exact scanLine_of_scan hscan hend

end Fragment
end StateForge
