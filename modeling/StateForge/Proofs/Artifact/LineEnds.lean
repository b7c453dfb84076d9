import Mathlib.Data.List.Forall2
import StateForge.Proofs.Artifact.Status

/-!
# Files that count as unchanged

A file is compared with an artifact line by line, so a file with other bytes can count as unchanged.
This file says which bytes those are: the ends of lines may be written in two ways, in any mixture,
and the last line may lack its line feed as long as something of it is left
(`Lines.IsVariant`).

Every text is a number of lines with their line feeds and a rest without one
(`Lines.exists_unlines`), and the reader of lines is described by that decomposition
(`Lines.splitFrom_unlines_append`). What stands before a line feed in the file is a line of the
artifact or such a line and a carriage return, whichever side one starts from
(`Lines.dropCarriageReturn_eq_iff`, `Lines.endsReplaced_unlines_iff`).
-/

set_option autoImplicit false

namespace StateForge
namespace Lines

/-! ## Variants of a text -/

/-- Some line feeds are replaced by a carriage return and a line feed. -/
inductive EndsReplaced : Text → Text → Prop
  | nil : EndsReplaced [] []
  | keep (b : UInt8) {s t : Text} (h : EndsReplaced s t) : EndsReplaced (b :: s) (b :: t)
  | replace {s t : Text} (h : EndsReplaced s t) :
      EndsReplaced (Text.newline :: s) (Text.carriageReturn :: Text.newline :: t)

/-- Something stands after the last line feed. -/
def EndsInLine (s : Text) : Prop :=
  ∃ b, s.getLast? = some b ∧ b ≠ Text.newline

/-- Some line ends are written in the other way, and then the last line feed may be left out if
something stands between it and the one before. -/
def IsVariant (s t : Text) : Prop :=
  ∃ r, EndsReplaced s r ∧ (t = r ∨ (r = t ++ [Text.newline] ∧ EndsInLine t))

/-! ## Lines and a rest -/

theorem unlines_concat (lines : List Text) (line : Text) :
    Text.unlines (lines ++ [line]) = Text.unlines lines ++ line ++ [Text.newline] := by
  simp [Text.unlines]

/-- Every text is a number of lines, each with its line feed, and a rest without one. -/
theorem exists_unlines (c : Text) :
    ∃ lines rest, c = Text.unlines lines ++ rest ∧ (∀ line ∈ lines, Text.newline ∉ line) ∧
      Text.newline ∉ rest := by
  induction c with
  | nil => exact ⟨[], [], rfl, by simp, by simp⟩
  | cons b c ih =>
    obtain ⟨lines, rest, rfl, hlines, hrest⟩ := ih
    by_cases hb : b = Text.newline
    · refine ⟨[] :: lines, rest, by rw [hb, Text.unlines_cons]; rfl, ?_, hrest⟩
      exact List.forall_mem_cons.mpr ⟨by simp, hlines⟩
    · cases lines with
      | nil => exact ⟨[], b :: rest, rfl, by simp, by simp [Ne.symm hb, hrest]⟩
      | cons line lines =>
        obtain ⟨hline, hlines⟩ := List.forall_mem_cons.mp hlines
        refine ⟨(b :: line) :: lines, rest, by simp [Text.unlines_cons], ?_, hrest⟩
        exact List.forall_mem_cons.mpr ⟨by simp [Ne.symm hb, hline], hlines⟩

theorem endsInLine_iff {lines : List Text} {rest : Text} (hrest : Text.newline ∉ rest) :
    EndsInLine (Text.unlines lines ++ rest) ↔ rest ≠ [] := by
  constructor
  · rintro ⟨b, hlast, hb⟩ rfl
    rcases List.eq_nil_or_concat lines with rfl | ⟨lines, line, rfl⟩
    · exact absurd hlast (by simp [Text.unlines])
    · rw [List.concat_eq_append, unlines_concat, List.append_nil, List.getLast?_concat] at hlast
      exact hb (Option.some.inj hlast).symm
  · intro hne
    refine ⟨rest.getLast hne, ?_, fun hlast => hrest (hlast ▸ List.getLast_mem hne)⟩
    rw [List.getLast?_append, List.getLast?_eq_some_getLast hne, Option.some_or]

/-! ## The two line ends -/

/-- The line as it can stand in a file, before its line feed. -/
def EndsAs (line raw : Text) : Prop :=
  raw = line ∨ raw = line ++ [Text.carriageReturn]

theorem dropCarriageReturn_eq_iff {line raw : Text}
    (h : line.getLast? ≠ some Text.carriageReturn) :
    dropCarriageReturn raw = line ↔ EndsAs line raw := by
  rw [dropCarriageReturn, EndsAs]
  rcases List.eq_nil_or_concat raw with rfl | ⟨raw, b, rfl⟩
  · simp
  · rw [List.concat_eq_append, List.getLast?_concat, List.dropLast_concat]
    by_cases hb : b = Text.carriageReturn
    · subst hb
      rw [if_pos rfl, List.append_left_inj]
      refine ⟨.inr, fun heq => heq.resolve_left ?_⟩
      rintro rfl
      exact h List.getLast?_concat
    · rw [if_neg (by simpa using hb)]
      refine ⟨.inl, fun heq => heq.resolve_right fun hreturn => hb ?_⟩
      exact (List.append_inj' hreturn rfl).2 |> List.singleton_inj.mp

/-- Where there is no line feed nothing is replaced. -/
theorem endsReplaced_append_iff {s r t : Text} (h : Text.newline ∉ s) :
    EndsReplaced (s ++ r) t ↔ ∃ t', t = s ++ t' ∧ EndsReplaced r t' := by
  induction s generalizing t with
  | nil => simp
  | cons b s ih =>
    rw [List.mem_cons, not_or] at h
    constructor
    · intro hreplaced
      cases hreplaced with
      | keep _ hrest =>
        obtain ⟨t', rfl, ht'⟩ := (ih h.2).mp hrest
        exact ⟨t', rfl, ht'⟩
      | replace => exact absurd rfl h.1
    · rintro ⟨t', rfl, ht'⟩
      exact .keep b ((ih h.2).mpr ⟨t', rfl, ht'⟩)

theorem endsReplaced_line_iff {line r t : Text} (h : Text.newline ∉ line) :
    EndsReplaced (line ++ Text.newline :: r) t ↔
      ∃ raw t', EndsAs line raw ∧ EndsReplaced r t' ∧ t = raw ++ Text.newline :: t' := by
  rw [endsReplaced_append_iff h]
  constructor
  · rintro ⟨t', rfl, hreplaced⟩
    cases hreplaced with
    | @keep _ _ t' hrest => exact ⟨line, t', .inl rfl, hrest, rfl⟩
    | @replace _ t' hrest =>
      exact ⟨line ++ [Text.carriageReturn], t', .inr rfl, hrest, by simp⟩
  · rintro ⟨raw, t', rfl | rfl, hrest, rfl⟩
    · exact ⟨_, rfl, .keep _ hrest⟩
    · exact ⟨_, by simp, .replace hrest⟩

/-- **Replacing line ends works on each line by itself.** -/
theorem endsReplaced_unlines_iff {lines : List Text} (h : ∀ line ∈ lines, Text.newline ∉ line)
    {t : Text} :
    EndsReplaced (Text.unlines lines) t ↔
      ∃ raws, List.Forall₂ EndsAs lines raws ∧ t = Text.unlines raws := by
  induction lines generalizing t with
  | nil =>
    constructor
    · intro hreplaced
      cases hreplaced
      exact ⟨[], .nil, rfl⟩
    · rintro ⟨raws, hraws, rfl⟩
      cases hraws
      exact .nil
  | cons line lines ih =>
    obtain ⟨hline, hlines⟩ := List.forall_mem_cons.mp h
    rw [Text.unlines_cons, endsReplaced_line_iff hline]
    constructor
    · rintro ⟨raw, t', hraw, hrest, rfl⟩
      obtain ⟨raws, hraws, rfl⟩ := (ih hlines).mp hrest
      exact ⟨raw :: raws, .cons hraw hraws, (Text.unlines_cons raw raws).symm⟩
    · rintro ⟨raws, hraws, rfl⟩
      cases hraws with
      | @cons _ raw _ raws hraw hraws =>
        exact ⟨raw, _, hraw, (ih hlines).mpr ⟨raws, hraws, rfl⟩, Text.unlines_cons raw raws⟩

theorem map_dropCarriageReturn_eq_iff {lines raws : List Text}
    (h : ∀ line ∈ lines, line.getLast? ≠ some Text.carriageReturn) :
    raws.map dropCarriageReturn = lines ↔ List.Forall₂ EndsAs lines raws := by
  induction raws generalizing lines with
  | nil => cases lines <;> simp
  | cons raw raws ih =>
    cases lines with
    | nil => simp
    | cons line lines =>
      obtain ⟨hline, hlines⟩ := List.forall_mem_cons.mp h
      rw [List.map_cons, List.cons.injEq, List.forall₂_cons, ih hlines,
        dropCarriageReturn_eq_iff hline]

theorem newline_notMem_of_endsAs {lines raws : List Text}
    (h : ∀ line ∈ lines, Text.newline ∉ line) (hraws : List.Forall₂ EndsAs lines raws) :
    ∀ raw ∈ raws, Text.newline ∉ raw := by
  induction hraws with
  | nil => simp
  | cons hraw _ ih =>
    obtain ⟨hline, hlines⟩ := List.forall_mem_cons.mp h
    refine List.forall_mem_cons.mpr ⟨?_, ih hlines⟩
    have hreturn : Text.newline ≠ Text.carriageReturn := by decide
    rcases hraw with rfl | rfl
    · exact hline
    · simp [hline, hreturn]

/-! ## Reading -/

/-- No line of the text is too long to be read. -/
def WithinLimit (c : Text) : Prop :=
  ∀ line, line <:+: c → Text.newline ∉ line → line.length ≤ maxLength

theorem ofContent?_unlines_append {written : List Text} {rest : Text}
    (h : ∀ line ∈ written, Text.newline ∉ line) (hrest : Text.newline ∉ rest)
    (hlimit : WithinLimit (Text.unlines written ++ rest)) :
    ofContent? (Text.unlines written ++ rest)
      = some ((written ++ restLine rest).map dropCarriageReturn) := by
  have hraw := splitFrom_unlines_append h hrest []
  rw [List.reverse_nil, List.nil_append] at hraw
  rw [ofContent?, hraw, if_pos]
  simp only [List.all_eq_true, List.mem_append, decide_eq_true_eq]
  rintro line (hline | hline)
  · refine hlimit line ?_ (h line hline)
    have hinfix : line ++ [Text.newline] <:+: Text.unlines written :=
      List.infix_of_mem_flatten (List.mem_map_of_mem hline)
    exact ((List.prefix_append line _).isInfix.trans hinfix).trans
      (List.prefix_append _ _).isInfix
  · rw [restLine] at hline
    split at hline
    · exact absurd hline (by simp)
    · obtain rfl := List.mem_singleton.mp hline
      exact hlimit line (List.suffix_append _ _).isInfix hrest

/-- **The texts that are read as certain lines** are the variants of these lines. -/
theorem ofContent?_eq_some_iff {lines : List Text} (hplain : ∀ line ∈ lines, line.IsPlain)
    {c : Text} (hlimit : WithinLimit c) :
    ofContent? c = some lines ↔ IsVariant (Text.unlines lines) c := by
  have hnewline := fun line hline => (hplain line hline).no_newline
  obtain ⟨written, rest, rfl, hwritten, hrest⟩ := exists_unlines c
  rw [ofContent?_unlines_append hwritten hrest hlimit, Option.some.injEq,
    map_dropCarriageReturn_eq_iff fun line hline => (hplain line hline).no_return, IsVariant]
  simp only [endsReplaced_unlines_iff hnewline, endsInLine_iff hrest]
  constructor
  · intro hends
    refine ⟨_, ⟨_, hends, rfl⟩, ?_⟩
    by_cases hnil : rest = []
    · exact .inl (by simp [restLine, hnil])
    · exact .inr ⟨by rw [restLine, if_neg hnil, unlines_concat], hnil⟩
  · rintro ⟨_, ⟨raws, hraws, rfl⟩, hend⟩
    -- both sides consist of lines, and can be taken apart in one way only
    have hsplit := splitFrom_unlines (newline_notMem_of_endsAs hnewline hraws) []
    have hlines : raws = written ++ restLine rest := by
      rcases hend with heq | ⟨heq, hne⟩
      · rw [← heq, splitFrom_unlines_append hwritten hrest] at hsplit
        simpa using hsplit.symm
      · rw [heq, ← unlines_concat, splitFrom_unlines (by simpa [or_imp, forall_and] using
          ⟨hwritten, hrest⟩)] at hsplit
        simpa [restLine, hne] using hsplit.symm
    exact hlines ▸ hraws

end Lines

/-! ## Writing -/

/-- **A file counts as unchanged exactly if it is a variant of the content**, for an artifact whose
lines can be told apart in a file. -/
theorem unchanged_iff_variant {w : Writer} {fs : FileSystem} {a : Artifact} {l : Location}
    {c : Text} (hfile : fs.resolve true (w.path a) = .ok (.found l (.file c)))
    (hlimit : Lines.WithinLimit c) (hplain : ∀ line ∈ a.lines, line.IsPlain) :
    (w.write fs a).result = .ok .unchanged ↔ Lines.IsVariant a.content c := by
  rw [Artifact.content, ← Lines.ofContent?_eq_some_iff hplain hlimit,
    (w.write_runs fs a).unchanged_iff, Writer.Finds, FileSystem.readLines_eq_ok_iff]
  constructor
  · rintro ⟨l', c', hr, hlines⟩
    cases hfile.symm.trans hr
    exact hlines
  · exact fun hlines => ⟨l, c, hfile, hlines⟩

/-- Two lines, of which the last is empty. -/
def twoLines : Artifact :=
  ⟨"note", ["ab", ""]⟩

/-- A file system with a note in it. -/
def noteFiles (c : Text) : FileSystem :=
  ⟨[([Text.ofString "note"], .file c)], []⟩

/-- Line ends in both ways, and the last line feed left out: what is left of the last line is a
carriage return. If nothing is left of it, it is no line. -/
theorem mixedEnds_unchanged :
    Lines.IsVariant twoLines.content "ab\n\r" ∧
    ((Writer.make "" false).write (noteFiles "ab\n\r") twoLines).result = .ok .unchanged ∧
    ((Writer.make "" false).write (noteFiles "ab\n") twoLines).result ≠ .ok .unchanged := by
  have hfile : (noteFiles "ab\n\r").resolve true ((Writer.make "" false).path twoLines)
      = .ok (.found [Text.ofString "note"] (.file "ab\n\r")) :=
    eq_ok_of_toOption_eq_some (by decide +kernel)
  have hlimit : Lines.WithinLimit "ab\n\r" := fun line hline _ =>
    hline.length_le.trans (by decide)
  have hplain : ∀ line ∈ twoLines.lines, line.IsPlain := by
    simp only [twoLines, List.forall_mem_cons, List.not_mem_nil, false_imp_iff, implies_true,
      and_true]
    exact ⟨⟨by decide, by decide⟩, ⟨by decide, by decide⟩⟩
  have hvariant : Lines.IsVariant twoLines.content "ab\n\r" :=
    ⟨"ab\n\r\n", .keep _ (.keep _ (.keep _ (.replace .nil))), .inr ⟨rfl, _, rfl, by decide⟩⟩
  have hother : ((Writer.make "" false).write (noteFiles "ab\n") twoLines).result.toOption
      ≠ some .unchanged := by
    decide +kernel
  exact ⟨hvariant, (unchanged_iff_variant hfile hlimit hplain).mpr hvariant,
    fun h => hother (congrArg Except.toOption h)⟩

end StateForge
