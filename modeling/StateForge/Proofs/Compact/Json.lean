import Mathlib.Data.List.Forall2
import StateForge.Json.Decode
import StateForge.Proofs.Compact.Rendering

/-!
# The compact form as JSON

`Json.Reads w v` says that a value is read from a text, whatever follows it. Each of the three forms
of the compact rendering keeps it (`Json.reads_quoted`, `Json.Reads.list`, `Json.Reads.record`), so
the JSON of a whole document is known, and `Document.ofJson_compact` reads it into the document
again.
-/

set_option autoImplicit false

namespace StateForge

namespace Json

open StateForge.Compact

/-! ## Texts -/

theorem wellFormed_of_isAscii {s : Text} (h : s.IsAscii) : wellFormed s = s := by
  rw [wellFormed, Text.runes_of_isAscii h, List.map_map]
  exact (congrArg Text.ofChars (List.map_id _)).trans (Text.ofChars_chars h)

/-- The inside of a quoted text is read to its end. -/
theorem string?_quotable {s : Text} (h : s.Over isQuotable) (text plain rest : Text) {fuel : Nat}
    (hfuel : s.length < fuel) :
    string? fuel text plain (s ++ 0x22 :: rest) =
      some ((flush text (s.reverse ++ plain)).reverse, rest) := by
  induction s generalizing plain fuel with
  | nil =>
    obtain ⟨fuel, rfl⟩ := Nat.exists_eq_add_one.mpr hfuel
    rfl
  | cons b s ih =>
    obtain ⟨fuel, rfl⟩ := Nat.exists_eq_add_one.mpr (Nat.zero_lt_of_lt hfuel)
    obtain ⟨hb, hs⟩ := List.forall_mem_cons.mp h
    obtain ⟨hlow, -, hquote, hslash⟩ := isQuotable_iff.mp hb
    have hquote' : (b == 0x22) = false := beq_false_of_ne fun heq => hquote (heq ▸ rfl)
    have hslash' : (b == 0x5c) = false := beq_false_of_ne fun heq => hslash (heq ▸ rfl)
    have hlow' : ¬ b < 0x20 := fun hlt =>
      absurd (UInt8.lt_iff_toNat_lt.mp hlt) (Nat.not_lt.mpr (Nat.le_of_succ_le hlow))
    rw [List.cons_append, string?.eq_def]
    simp only [hquote', hslash', hlow', Bool.false_eq_true, if_false]
    rw [ih hs _ (Nat.lt_of_succ_lt_succ hfuel), List.reverse_cons, List.append_assoc,
      List.singleton_append]

theorem stringAfterQuote?_quotable {s : Text} (h : s.Over isQuotable) (rest : Text) :
    stringAfterQuote? (s ++ 0x22 :: rest) = some (s, rest) := by
  have hfuel : s.length < (s ++ 0x22 :: rest).length + 1 := by
    rw [List.length_append]
    omega
  rw [stringAfterQuote?, string?_quotable h _ _ _ hfuel, List.append_nil, flush,
    List.append_nil, List.reverse_reverse, List.reverse_reverse, wellFormed_of_isAscii h.isAscii]

/-! ## Values -/

theorem skipSpace_cons {b : UInt8} (h : isSpace b = false) (s : Text) :
    skipSpace (b :: s) = b :: s := by
  rw [skipSpace, List.dropWhile_cons_of_neg (by simp [h])]

/-- The value is read from the text, whatever follows. -/
structure Reads (w : Text) (v : Json) : Prop where
  /-- The text opens one of the three forms. -/
  opens : ∃ b t, w = b :: t ∧ (b = 0x22 ∨ b = 0x5b ∨ b = 0x7b)
  value : ∀ fuel rest, w.length ≤ fuel → value? fuel (w ++ rest) = some (v, rest)

namespace Reads

variable {w : Text} {v : Json}

theorem skipSpace_append (h : Reads w v) (s : Text) : skipSpace (w ++ s) = w ++ s := by
  obtain ⟨b, t, rfl, hb⟩ := h.opens
  exact skipSpace_cons (by rcases hb with rfl | rfl | rfl <;> rfl) _

/-- A value closes no list. -/
theorem append_ne (h : Reads w v) (s t : Text) : w ++ s ≠ 0x5d :: t := by
  obtain ⟨b, t', rfl, hb⟩ := h.opens
  intro heq
  obtain rfl : b = 0x5d := (List.cons.inj heq).1
  exact absurd hb (by decide)

end Reads

theorem reads_quoted {s : Text} (h : s.Over isQuotable) : Reads (quoted s) (string s) := by
  refine ⟨⟨0x22, s ++ [0x22], rfl, .inl rfl⟩, fun fuel rest hfuel => ?_⟩
  obtain ⟨fuel, rfl⟩ := Nat.exists_eq_add_one.mpr
    (Nat.lt_of_lt_of_le (Nat.succ_pos _) hfuel)
  have htext : quoted s ++ rest = 0x22 :: (s ++ 0x22 :: rest) := by simp [quoted]
  rw [htext, value?, skipSpace_cons rfl]
  simp [stringAfterQuote?_quotable h]

theorem skipSpace_comma (s : Text) : skipSpace (comma :: s) = 0x2c :: s :=
  skipSpace_cons rfl s

/-- The items of a list are read to the closing bracket. -/
theorem items?_intercalate {w : Text} {v : Json} {ws : List Text} {vs : List Json}
    (h : List.Forall₂ Reads (w :: ws) (v :: vs)) (rest : Text) {fuel : Nat}
    (hfuel : (List.intercalate [comma] (w :: ws)).length < fuel) :
    items? fuel (List.intercalate [comma] (w :: ws) ++ 0x5d :: rest) = some (v :: vs, rest) := by
  induction ws generalizing w v vs fuel with
  | nil =>
    obtain ⟨hw, hnil⟩ := List.forall₂_cons.mp h
    obtain rfl := List.forall₂_nil_left_iff.mp hnil
    obtain ⟨fuel, rfl⟩ := Nat.exists_eq_add_one.mpr (Nat.zero_lt_of_lt hfuel)
    rw [List.intercalate_singleton] at hfuel ⊢
    rw [items?, hw.value fuel _ (Nat.le_of_lt_succ hfuel)]
    simp [skipSpace_cons (show isSpace 0x5d = false from rfl)]
  | cons w' ws ih =>
    obtain ⟨hw, hmore⟩ := List.forall₂_cons.mp h
    obtain ⟨v', vs', -, -, rfl⟩ := List.forall₂_cons_left_iff.mp hmore
    obtain ⟨fuel, rfl⟩ := Nat.exists_eq_add_one.mpr (Nat.zero_lt_of_lt hfuel)
    simp only [List.intercalate_cons_cons, List.append_assoc, List.singleton_append] at hfuel ⊢
    rw [List.length_append, List.length_cons] at hfuel
    have hrest := ih hmore (show _ < fuel by omega)
    rw [items?, hw.value fuel _ (by omega)]
    simp [skipSpace_comma, hrest]

theorem Reads.list {ws : List Text} {vs : List Json} (h : List.Forall₂ Reads ws vs) :
    Reads (Compact.list ws) (array vs) := by
  refine ⟨⟨0x5b, _, rfl, .inr (.inl rfl)⟩, fun fuel rest hfuel => ?_⟩
  obtain ⟨fuel, rfl⟩ := Nat.exists_eq_add_one.mpr
    (Nat.lt_of_lt_of_le (Nat.succ_pos _) hfuel)
  have htext : Compact.list ws ++ rest = 0x5b :: (List.intercalate [comma] ws ++ 0x5d :: rest) := by
    simp [Compact.list]
  have hlength : (List.intercalate [comma] ws).length < fuel := by
    have := hfuel
    simp only [Compact.list, List.cons_append, List.length_cons, List.length_append] at this
    omega
  rw [htext, value?, skipSpace_cons rfl]
  cases h with
  | nil => rfl
  | cons hw hws =>
    have hitems := items?_intercalate (.cons hw hws) rest hlength
    rw [intercalate_cons, List.append_assoc] at hitems ⊢
    simp only [hw.skipSpace_append, show ((0x5b : UInt8) == 0x7b) = false from rfl,
      beq_self_eq_true, Bool.false_eq_true, if_false, if_true]
    split
    · exact absurd ‹_› (hw.append_ne _ _)
    · rw [hitems, Option.map_some]

/-- The member is read from its name and its value. -/
structure ReadsMember (m : Text × Text) (p : Text × Json) : Prop where
  name_eq : m.1 = p.1
  name_ok : m.1.Over isQuotable
  reads : Reads m.2 p.2

theorem readsMember {name w : Text} {v : Json} (hname : name.Over isQuotable) (h : Reads w v) :
    ReadsMember (name, w) (name, v) :=
  ⟨rfl, hname, h⟩

/-- A member that closes a record. -/
theorem members?_last {m : Text × Text} {p : Text × Json} (h : ReadsMember m p) (rest : Text)
    {fuel : Nat} (hfuel : m.2.length ≤ fuel) :
    members? (fuel + 1) (member m ++ 0x7d :: rest) = some ([p], rest) := by
  obtain ⟨name, v⟩ := p
  obtain ⟨rfl, hok, hreads⟩ := h
  have htext : member m ++ 0x7d :: rest
      = 0x22 :: (m.1 ++ 0x22 :: 0x3a :: (m.2 ++ 0x7d :: rest)) := by
    simp [member, quoted]
  rw [htext, members?, skipSpace_cons rfl]
  simp [stringAfterQuote?_quotable hok, skipSpace_cons (show isSpace 0x3a = false from rfl),
    hreads.value fuel _ hfuel, skipSpace_cons (show isSpace 0x7d = false from rfl)]

/-- A member that others follow. -/
theorem members?_comma {m : Text × Text} {p : Text × Json} (h : ReadsMember m p) {s rest : Text}
    {ps : List (Text × Json)} {fuel : Nat} (hfuel : m.2.length ≤ fuel)
    (hmore : members? fuel s = some (ps, rest)) :
    members? (fuel + 1) (member m ++ comma :: s) = some (p :: ps, rest) := by
  obtain ⟨name, v⟩ := p
  obtain ⟨rfl, hok, hreads⟩ := h
  have htext : member m ++ comma :: s = 0x22 :: (m.1 ++ 0x22 :: 0x3a :: (m.2 ++ comma :: s)) := by
    simp [member, quoted]
  rw [htext, members?, skipSpace_cons rfl]
  simp [stringAfterQuote?_quotable hok, skipSpace_cons (show isSpace 0x3a = false from rfl),
    hreads.value fuel _ hfuel, skipSpace_comma, hmore]

/-- The members of a record are read to the closing brace. -/
theorem members?_intercalate {m : Text × Text} {p : Text × Json} {ms : List (Text × Text)}
    {ps : List (Text × Json)} (h : List.Forall₂ ReadsMember (m :: ms) (p :: ps)) (rest : Text)
    {fuel : Nat} (hfuel : (List.intercalate [comma] ((m :: ms).map member)).length < fuel) :
    members? fuel (List.intercalate [comma] ((m :: ms).map member) ++ 0x7d :: rest)
      = some (p :: ps, rest) := by
  have hvalue : ∀ m : Text × Text, m.2.length ≤ (member m).length := by
    intro m
    simp only [member, List.length_append, List.length_cons]
    omega
  induction ms generalizing m p ps fuel with
  | nil =>
    obtain ⟨hm, hnil⟩ := List.forall₂_cons.mp h
    obtain rfl := List.forall₂_nil_left_iff.mp hnil
    obtain ⟨fuel, rfl⟩ := Nat.exists_eq_add_one.mpr (Nat.zero_lt_of_lt hfuel)
    rw [List.map_singleton, List.intercalate_singleton] at hfuel ⊢
    exact members?_last hm rest (Nat.le_trans (hvalue m) (Nat.le_of_lt_succ hfuel))
  | cons m' ms ih =>
    obtain ⟨hm, hmore⟩ := List.forall₂_cons.mp h
    obtain ⟨p', ps', -, -, rfl⟩ := List.forall₂_cons_left_iff.mp hmore
    obtain ⟨fuel, rfl⟩ := Nat.exists_eq_add_one.mpr (Nat.zero_lt_of_lt hfuel)
    simp only [List.map_cons, List.intercalate_cons_cons, List.append_assoc, List.singleton_append]
      at hfuel ⊢
    rw [List.length_append, List.length_cons, ← List.map_cons] at hfuel
    have := hvalue m
    exact members?_comma hm (by omega) (ih hmore (by omega))

theorem Reads.record {ms : List (Text × Text)} {ps : List (Text × Json)}
    (h : List.Forall₂ ReadsMember ms ps) : Reads (Compact.record ms) (object ps) := by
  refine ⟨⟨0x7b, _, rfl, .inr (.inr rfl)⟩, fun fuel rest hfuel => ?_⟩
  obtain ⟨fuel, rfl⟩ := Nat.exists_eq_add_one.mpr
    (Nat.lt_of_lt_of_le (Nat.succ_pos _) hfuel)
  have htext : Compact.record ms ++ rest
      = 0x7b :: (List.intercalate [comma] (ms.map member) ++ 0x7d :: rest) := by
    simp [Compact.record]
  have hlength : (List.intercalate [comma] (ms.map member)).length < fuel := by
    have := hfuel
    simp only [Compact.record, List.cons_append, List.length_cons, List.length_append] at this
    omega
  rw [htext, value?, skipSpace_cons rfl]
  cases h with
  | nil => rfl
  | @cons m p ms ps hm hms =>
    have hmembers := members?_intercalate (.cons hm hms) rest hlength
    obtain ⟨t, ht⟩ : ∃ t, List.intercalate [comma] ((m :: ms).map member) ++ 0x7d :: rest
        = 0x22 :: t := by
      rw [List.map_cons, intercalate_cons]
      exact ⟨_, rfl⟩
    rw [ht] at hmembers ⊢
    simp [skipSpace_cons (show isSpace 0x22 = false from rfl), hmembers]

/-- A text that is one value. -/
theorem Reads.parse? {w : Text} {v : Json} (h : Reads w v) : Json.parse? w = some v := by
  have hvalue := h.value (w.length + 1) [] (Nat.le_succ _)
  rw [List.append_nil] at hvalue
  rw [Json.parse?, hvalue]
  rfl

end Json

/-! ## Documents -/

open Json

/-- A transition as a JSON value. -/
def TransitionDocument.toJson (d : TransitionDocument) : Json :=
  .object [("predicate", .string d.predicate), ("state", .string d.state)]

/-- A state as a JSON value. -/
def StateDocument.toJson (d : StateDocument) : Json :=
  .object [("name", .string d.name), ("run", .string d.run),
    ("transitions", .array (d.transitions.map TransitionDocument.toJson))]

/-- A document as a JSON value. -/
def Document.toJson (d : Document) : Json :=
  .object [("start", .string d.start), ("states", .array (d.states.map StateDocument.toJson))]

theorem Json.intoItems_map {α : Type} {item : α → Json → Except JsonError α} {fresh : α}
    {toJson : α → Json} (h : ∀ a, item fresh (toJson a) = .ok a) (as : List α) :
    intoItems item fresh [] (as.map toJson) = .ok as := by
  induction as with
  | nil => rfl
  | cons a as ih =>
    rw [List.map_cons, intoItems, List.head?_nil, Option.getD_none, h, List.tail_nil, ih]
    rfl

theorem TransitionDocument.intoRecord_toJson (d : TransitionDocument) :
    intoRecord jsonFields {} d.toJson = .ok d :=
  rfl

theorem StateDocument.intoRecord_toJson (d : StateDocument) :
    intoRecord jsonFields {} d.toJson = .ok d := by
  show (intoItems (intoRecord TransitionDocument.jsonFields) {} []
    (d.transitions.map TransitionDocument.toJson) >>= fun ts =>
      pure { name := d.name, run := d.run, transitions := ts }) >>= pure = .ok d
  rw [intoItems_map TransitionDocument.intoRecord_toJson]
  rfl

theorem Document.intoRecord_toJson (d : Document) : intoRecord jsonFields {} d.toJson = .ok d := by
  show (intoItems (intoRecord StateDocument.jsonFields) {} []
    (d.states.map StateDocument.toJson) >>= fun sts =>
      pure { start := d.start, states := sts }) >>= pure = .ok d
  rw [intoItems_map StateDocument.intoRecord_toJson]
  rfl

/-! ## Reading the compact form -/

theorem TransitionDocument.reads_compact {d : TransitionDocument} (h : d.IsQuotable) :
    Reads d.compact d.toJson :=
  .record (.cons (readsMember (by decide) (reads_quoted h.predicate))
    (.cons (readsMember (by decide) (reads_quoted h.state)) .nil))

theorem StateDocument.reads_compact {d : StateDocument} (h : d.IsQuotable) :
    Reads d.compact d.toJson := by
  have htransitions : Reads (Compact.list (d.transitions.map TransitionDocument.compact))
      (.array (d.transitions.map TransitionDocument.toJson)) := by
    refine .list (List.forall₂_map_left_iff.mpr (List.forall₂_map_right_iff.mpr ?_))
    exact List.forall₂_same.mpr fun t ht => TransitionDocument.reads_compact (h.transitions t ht)
  exact .record (.cons (readsMember (by decide) (reads_quoted h.name))
    (.cons (readsMember (by decide) (reads_quoted h.run))
      (.cons (readsMember (by decide) htransitions) .nil)))

theorem Document.reads_compact {d : Document} (h : d.IsQuotable) : Reads d.compact d.toJson := by
  have hstates : Reads (Compact.list (d.states.map StateDocument.compact))
      (.array (d.states.map StateDocument.toJson)) := by
    refine .list (List.forall₂_map_left_iff.mpr (List.forall₂_map_right_iff.mpr ?_))
    exact List.forall₂_same.mpr fun st hst => StateDocument.reads_compact (h.states st hst)
  exact .record (.cons (readsMember (by decide) (reads_quoted h.start))
    (.cons (readsMember (by decide) hstates) .nil))

/-- **A document in its compact form is read back from it as JSON.** -/
theorem Document.ofJson_compact {d : Document} (h : d.IsQuotable) : ofJson d.compact = .ok d := by
  rw [ofJson, (reads_compact h).parse?]
  exact d.intoRecord_toJson

end StateForge
