import StateForge.Proofs.Alphabet
import StateForge.Proofs.Fragment.Execution

/-!
# The program that a machine becomes

Generated sources are lists of lines. Here they are read as a program of the C fragment: the header
of a machine is `Machine.interface` and its implementation is `Machine.program`, whatever the files
are called, whatever they include and whether or not the header carries a diagram.

The lines of a chain of conditions come in pieces that match no part of a program: a line closes one
block and opens the next. `scanLines_chainRest` is where they are put together. Seen from a closing
brace, what follows is always the alternative of the condition before, and that is the form in which
the induction goes through.
-/

set_option autoImplicit false

namespace StateForge

open Fragment

/-! ## The program -/

/-- The variable that holds the state to move to. -/
def nextVariable : Text := "nextState"

/-- The enumeration of the states. -/
def stateTag : Text := "State"

/-- The function that runs the action of the current state. -/
def runName : Text := "stateRun"

/-- The function that moves to the next state. -/
def transitionName : Text := "stateTransition"

/-- A condition, as an expression of C. -/
def Predicate.condition (p : Predicate) : Expr :=
  .operand (if p.negated then .negation (.call p.name) else .call p.name)

namespace Transition

/-- What a transition does when it is taken. -/
def choice (t : Transition) (rest : Code) : Code :=
  .assign nextVariable (.operand (.name t.target)) rest

/-- The choice among transitions, and what follows it. -/
def code : List Transition → Code → Code
  | [], rest => rest
  | t :: ts, rest =>
    if t.isUnconditional then t.choice rest
    else .branch t.predicate.condition (t.choice .done) (code ts .done) rest

end Transition

namespace State

/-- The case of a state in the function that runs an action. -/
def runCode (st : State) (rest : Code) : Code :=
  .label st.name (.call st.action (.leave rest))

/-- The case of a state in the function that changes the state. -/
def transitionCode (st : State) (rest : Code) : Code :=
  .label st.name (Transition.code st.transitions (.leave rest))

end State

namespace Machine

/-- The function body that runs the action of the current state. -/
def runBody (m : Machine) : Code :=
  .choose (.operand (.name currentVariable)) (m.states.foldr State.runCode .done) .done

/-- Writes the current state, if it changes. -/
def commit : Code :=
  .branch (.differ (.name nextVariable) (.name currentVariable))
    (.assign currentVariable (.operand (.name nextVariable)) .done) .done .done

/-- The function body that moves to the next state. -/
def transitionBody (m : Machine) : Code :=
  .choose (.operand (.name currentVariable)) (m.states.foldr State.transitionCode .done) commit

/-- The local variable of the function that moves to the next state. -/
def nextLocal : Local :=
  ⟨stateTag, nextVariable, .operand (.name currentVariable)⟩

/-- The header of a machine, as a program. -/
def interface (m : Machine) : List Decl :=
  [.enumeration stateTag m.stateNames, .announced .void runName, .announced .void transitionName]

/-- The variable and the two functions of the implementation. -/
def definitions (m : Machine) : List Decl :=
  [.global stateTag currentVariable m.start, .function runName [] m.runBody,
   .function transitionName [nextLocal] m.transitionBody]

/-- The implementation of a machine, as a program. -/
def program (m : Machine) : List Decl :=
  m.actions.map (.announced .void) ++ (m.predicateNames.map (.announced .bool) ++ m.definitions)

end Machine

/-! ## Lines with one name -/

section

variable {w : Text} (h : w.IsUsable)
include h

theorem scanLine_caseLabel {st : State} (hst : st.name = w) :
    scanLine .lineStart st.caseLabel = some (.lineStart, [.caseWord, .name w, .colon]) := by
  rw [State.caseLabel, hst]
  exact scanLine_around_name [.caseWord] [.colon] h rfl (.inl rfl) rfl rfl

theorem scanLine_actionCall :
    scanLine .lineStart ("\t\t" ++ w ++ "();")
      = some (.lineStart, [.name w, .openParen, .closeParen, .semicolon]) :=
  scanLine_around_name [] [.openParen, .closeParen, .semicolon] h rfl (.inr rfl) rfl rfl

theorem scanLine_actionDeclaration :
    scanLine .lineStart (Machine.actionDeclaration w)
      = some (.lineStart, (Decl.announced .void w).tokens) :=
  scanLine_around_name [.externWord, .voidWord] [.openParen, .closeParen, .semicolon] h rfl
    (.inl rfl) rfl rfl

theorem scanLine_predicateDeclaration :
    scanLine .lineStart (Machine.predicateDeclaration w)
      = some (.lineStart, (Decl.announced .bool w).tokens) :=
  scanLine_around_name [.externWord, .boolWord] [.openParen, .closeParen, .semicolon] h rfl
    (.inl rfl) rfl rfl

theorem scanLine_stateVariable :
    scanLine .lineStart ("static enum State state = " ++ w ++ ";")
      = some (.lineStart, (Decl.global stateTag currentVariable w).tokens) :=
  scanLine_around_name
    [.staticWord, .enumWord, .name stateTag, .name currentVariable, .assign] [.semicolon] h rfl
    (.inl rfl) rfl rfl

/-- An assignment, at either of the two depths at which there is one. -/
theorem scanLine_assignment {t : Transition} (ht : t.target = w) {depth : Text}
    (hd : depth = Text.ofString "\t\t" ∨ depth = Text.ofString "\t\t\t") :
    scanLine .lineStart (t.assignment depth)
      = some (.lineStart, [.name nextVariable, .assign, .name w, .semicolon]) := by
  rw [Transition.assignment, ht]
  rcases hd with rfl | rfl
  · exact scanLine_around_name [.name nextVariable, .assign] [.semicolon] h rfl (.inl rfl)
      rfl rfl
  · exact scanLine_around_name [.name nextVariable, .assign] [.semicolon] h rfl (.inl rfl)
      rfl rfl

/-- A call of a predicate function, with or without a negation in front. -/
theorem scan_call {p : Predicate} (hp : p.name = w) :
    scan .code p.call = some (.code, p.condition.tokens) := by
  have hcall : scan (.word w) "()" = some (.code, [.name w, .openParen, .closeParen]) :=
    scan_after_name h (by decide) rfl
  rw [Predicate.call, Predicate.written, Predicate.condition, hp]
  split
  · have hmark : scan .code [Predicate.negationMark] = some (.bang, []) := rfl
    exact scan_append (scan_append hmark (scan_negated_name h)) hcall
  · exact scan_append (scan_name h (.inl rfl)) hcall

/-- A line that asks for a condition: fixed text on both sides of a call. -/
theorem scanLine_condition (ts : List Token) {p : Predicate} (hp : p.name = w) {lead : Text}
    (hlead : scan .lineStart lead = some (.code, ts)) :
    scanLine .lineStart (lead ++ p.call ++ ") \x7b")
      = some (.lineStart, ts ++ (p.condition.tokens ++ [.closeParen, .openBrace])) := by
  have htail : scan .code ") \x7b" = some (.code, [.closeParen, .openBrace]) := rfl
  rw [scanLine_of_scan (scan_append (scan_append hlead (scan_call h hp)) htail) rfl,
    List.append_nil, List.append_assoc]

end

/-! ## Chains of conditions -/

/-- What is known of a transition of an accepted machine. -/
structure Transition.Named (t : Transition) : Prop where
  target : t.target.IsUsable
  predicate : t.isUnconditional = false → t.predicate.name.IsUsable

theorem Machine.WellFormed.named {m : Machine} (hm : m.WellFormed) {st : State}
    (hst : st ∈ m.states) {t : Transition} (ht : t ∈ st.transitions) : t.Named :=
  ⟨hm.isUsable_target hst ht, hm.isUsable_predicate hst ht⟩

namespace Transition

theorem tokens_choice (t : Transition) (rest : Code) :
    (t.choice rest).tokens
      = [.name nextVariable, .assign, .name t.target, .semicolon] ++ rest.tokens := rfl

/-- What follows a choice is written after it. -/
theorem tokens_code (ts : List Transition) (rest : Code) :
    (code ts rest).tokens = (code ts .done).tokens ++ rest.tokens := by
  cases ts with
  | nil => rfl
  | cons t ts =>
    by_cases hu : t.isUnconditional = true
    · rw [code, code, if_pos hu, if_pos hu, tokens_choice, tokens_choice, Code.tokens,
        List.append_nil]
    · rw [code, code, if_neg hu, if_neg hu, Code.tokens, Code.tokens, Code.tokens]
      simp

/-- After an `else`, a further condition stands without braces and an assignment within them. -/
theorem elseTokens_code_cons (t : Transition) (ts : List Transition) :
    Code.elseTokens (code (t :: ts) .done) (code (t :: ts) .done).tokens
      = if t.isUnconditional then
          .elseWord :: .openBrace :: ((t.choice .done).tokens ++ [.closeBrace])
        else .elseWord :: (code (t :: ts) .done).tokens := by
  by_cases hu : t.isUnconditional = true
  · rw [code, if_pos hu, if_pos hu, Code.elseTokens, if_neg (by simp [choice]),
      if_neg (by simp [choice, Code.isBranch])]
  · rw [code, if_neg hu, if_neg hu, Code.elseTokens, if_neg (by simp),
      if_pos (by rw [Code.isBranch])]

/-- **The lines after the first block of a chain**: they close that block and go on with its
alternative. -/
theorem scanLines_chainRest {ts : List Transition} (h : ∀ t ∈ ts, t.Named) :
    scanLines .lineStart (chainRest ts ++ [chainEnd])
      = some (.lineStart,
          .closeBrace :: Code.elseTokens (code ts .done) (code ts .done).tokens) := by
  induction ts with
  | nil => rfl
  | cons t ts ih =>
    have ht := h t (by simp)
    have hassign := scanLine_assignment ht.target rfl (.inr rfl)
    rw [elseTokens_code_cons]
    by_cases hu : t.isUnconditional = true
    · have helse : scanLine .lineStart "\t\t\x7d else \x7b"
          = some (.lineStart, [.closeBrace, .elseWord, .openBrace]) := rfl
      have hend : scanLines .lineStart [chainEnd] = some (.lineStart, [.closeBrace]) := rfl
      rw [chainRest, if_pos hu, if_pos hu]
      exact scanLines_cons helse (scanLines_cons hassign hend)
    · have hcond := scanLine_condition (ht.predicate (by simpa using hu))
        [.closeBrace, .elseWord, .ifWord, .openParen] rfl
        (show scan .lineStart "\t\t\x7d else if (" = some (.code, _) from rfl)
      have hrest := ih fun t' ht' => h t' (List.mem_cons_of_mem _ ht')
      rw [chainRest, if_neg hu, if_neg hu, List.cons_append, List.cons_append,
        scanLines_cons hcond (scanLines_cons hassign hrest), code, if_neg hu]
      simp [Code.tokens, Code.branchTokens, tokens_choice]

/-- **The lines of a chain are its code.** -/
theorem scanLines_chain {ts : List Transition} (h : ∀ t ∈ ts, t.Named) :
    scanLines .lineStart (chain ts) = some (.lineStart, (code ts .done).tokens) := by
  cases ts with
  | nil => rfl
  | cons t ts =>
    have ht := h t (by simp)
    by_cases hu : t.isUnconditional = true
    · have hassign := scanLine_assignment ht.target rfl (.inl rfl)
      rw [chain, if_pos hu, code, if_pos hu, tokens_choice]
      exact scanLines_cons hassign rfl
    · have hcond := scanLine_condition (ht.predicate (by simpa using hu))
        [.ifWord, .openParen] rfl
        (show scan .lineStart "\t\tif (" = some (.code, _) from rfl)
      have hassign := scanLine_assignment ht.target rfl (.inr rfl)
      have hrest := scanLines_chainRest fun t' ht' => h t' (List.mem_cons_of_mem _ ht')
      rw [chain, if_neg hu, scanLines_cons hcond (scanLines_cons hassign hrest), code, if_neg hu]
      simp [Code.tokens, Code.branchTokens, tokens_choice]

end Transition

/-! ## Functions -/

namespace State

theorem tokens_runCode (st : State) (rest : Code) :
    (st.runCode rest).tokens = (st.runCode .done).tokens ++ rest.tokens := rfl

theorem tokens_transitionCode (st : State) (rest : Code) :
    (st.transitionCode rest).tokens = (st.transitionCode .done).tokens ++ rest.tokens := by
  rw [transitionCode, transitionCode, Code.tokens, Code.tokens, Transition.tokens_code,
    Transition.tokens_code st.transitions (.leave .done), Code.tokens, Code.tokens, Code.tokens]
  simp

theorem scanLines_runCase {st : State} (hn : st.name.IsUsable) (ha : st.action.IsUsable) :
    scanLines .lineStart st.runCase = some (.lineStart, (st.runCode .done).tokens) := by
  have hend : scanLines .lineStart [caseEnd] = some (.lineStart, [.breakWord, .semicolon]) := rfl
  exact scanLines_cons (scanLine_caseLabel hn rfl) (scanLines_cons (scanLine_actionCall ha) hend)

theorem scanLines_transitionCase {st : State} (hn : st.name.IsUsable)
    (ht : ∀ t ∈ st.transitions, t.Named) :
    scanLines .lineStart st.transitionCase
      = some (.lineStart, (st.transitionCode .done).tokens) := by
  have hend : scanLines .lineStart [caseEnd] = some (.lineStart, [.breakWord, .semicolon]) := rfl
  have hchain := scanLines_append (Transition.scanLines_chain ht) hend
  rw [transitionCase, scanLines_cons (scanLine_caseLabel hn rfl) hchain, transitionCode,
    Code.tokens, Transition.tokens_code st.transitions (.leave .done)]
  rfl

end State

/-- Cases that follow each other are written one after the other. -/
theorem tokens_foldr {f : State → Code → Code}
    (hf : ∀ st rest, (f st rest).tokens = (f st .done).tokens ++ rest.tokens)
    (states : List State) :
    (states.foldr f .done).tokens = states.flatMap fun st => (f st .done).tokens := by
  induction states with
  | nil => rfl
  | cons st rest ih => rw [List.foldr_cons, hf, ih, List.flatMap_cons]

namespace Machine

variable {m : Machine} (hm : m.WellFormed)
include hm

theorem scanLines_runFunction :
    scanLines .lineStart m.runFunction
      = some (.lineStart, (Decl.function runName [] m.runBody).tokens) := by
  have hopen : scanLines .lineStart runOpening
      = some (.lineStart, [.voidWord, .name runName, .openParen, .closeParen, .openBrace,
          .switchWord, .openParen, .name currentVariable, .closeParen, .openBrace]) := rfl
  have hclose : scanLines .lineStart runClosing
      = some (.lineStart, [.closeBrace, .closeBrace]) := rfl
  have hcases := scanLines_flatMap fun st hst =>
    State.scanLines_runCase (hm.name st hst) (hm.action st hst)
  rw [runFunction, scanLines_append (scanLines_append hopen hcases) hclose, Decl.tokens, runBody,
    Code.tokens, tokens_foldr State.tokens_runCode]
  simp [Expr.tokens, Operand.tokens, Code.tokens]

theorem scanLines_transitionFunction :
    scanLines .lineStart m.transitionFunction
      = some (.lineStart, (Decl.function transitionName [nextLocal] m.transitionBody).tokens) := by
  have hopen : scanLines .lineStart transitionOpening
      = some (.lineStart, [.voidWord, .name transitionName, .openParen, .closeParen, .openBrace]
          ++ nextLocal.tokens ++ [.switchWord, .openParen, .name currentVariable, .closeParen,
          .openBrace]) := rfl
  have hclose : scanLines .lineStart transitionClosing
      = some (.lineStart, .closeBrace :: (commit.tokens ++ [.closeBrace])) := rfl
  have hcases := scanLines_flatMap fun st hst =>
    State.scanLines_transitionCase (hm.name st hst) fun t ht => hm.named hst ht
  rw [transitionFunction, scanLines_append (scanLines_append hopen hcases) hclose, Decl.tokens,
    transitionBody, Code.tokens, tokens_foldr State.tokens_transitionCode]
  simp [Expr.tokens, Operand.tokens]

end Machine

/-- Declarations that follow each other, one line each. -/
theorem scanLines_map {f : Text → Text} {g : Text → Decl} {l : List Text}
    (h : ∀ a ∈ l, scanLine .lineStart (f a) = some (.lineStart, (g a).tokens)) :
    scanLines .lineStart (l.map f) = some (.lineStart, (l.map g).flatMap Decl.tokens) := by
  have hlines := scanLines_flatMap (f := fun a => [f a]) (g := fun a => (g a).tokens)
    fun a ha => by
      have hline := scanLines_cons (h a ha) (rfl : scanLines .lineStart [] = some (.lineStart, []))
      rwa [List.append_nil] at hline
  rw [List.flatMap_map]
  rwa [← List.map_eq_flatMap] at hlines

/-! ## Sources -/

/-- The names of an enumeration, on one line. -/
theorem scanLine_enumerators {names : List Text} (hne : names ≠ []) (h : ∀ n ∈ names, n.IsUsable)
    {q : Mode} (hq : q = .code ∨ q = .lineStart) :
    scanLine q ((Text.ofString ", ").intercalate names) = some (.lineStart, namesTokens names) := by
  induction names generalizing q with
  | nil => exact absurd rfl hne
  | cons n rest ih =>
    have hn := h n (by simp)
    have hscan := scan_name hn hq
    cases rest with
    | nil =>
      have hend : (Mode.word n).endLine = some (.lineStart, [.name n]) := by
        rw [Mode.endLine, Token.ofWord?_of_isUsable hn]
        rfl
      rw [List.intercalate_singleton, scanLine_of_scan hscan hend]
      rfl
    | cons n' rest' =>
      have hcomma : scan (.word n) ", " = some (.code, [.name n, .comma]) :=
        scan_after_name hn (by decide) rfl
      have hrest := ih (by simp) (fun x hx => h x (List.mem_cons_of_mem _ hx)) (.inl rfl)
      rw [List.intercalate_cons_cons, scanLine_append (scan_append hscan hcomma) hrest]
      rfl

namespace SourceLayout

/-- The comment with the diagram leaves no tokens: nothing in it can end it early. -/
theorem scanLines_diagramComment {m : Machine} (hm : m.WellFormed) :
    scanLines .lineStart (m.diagramComment .ascii) = some (.lineStart, []) := by
  have hopen : scanLine .lineStart "/*" = some (.blockComment, []) := rfl
  have hclose : scanLines .blockComment [" */"] = some (.lineStart, []) := rfl
  have hlines : ∀ lines : List Text, (∀ line ∈ lines, line.Over isDiagramByte) →
      scanLines .blockComment (lines.map Machine.commentLine) = some (.blockComment, []) := by
    intro lines hover
    induction lines with
    | nil => rfl
    | cons line rest ih =>
      have hline := Machine.over_commentLine (hover line (by simp))
      exact scanLines_cons (scanLine_blockComment (hline.notMem (by decide)))
        (ih fun l hl => hover l (List.mem_cons_of_mem _ hl))
  have hbody := hlines (m.diagram .ascii) fun line hline => m.over_of_mem_diagram hm hline
  exact scanLines_cons hopen (scanLines_append hbody hclose)

theorem scanLines_headerBody {m : Machine} (hm : m.WellFormed) :
    scanLines .lineStart m.headerBody = some (.lineStart, m.interface.flatMap Decl.tokens) := by
  have hlead : scanLines .lineStart ["// definition of state values", "enum State \x7b"]
      = some (.lineStart, [.enumWord, .name stateTag, .openBrace]) := rfl
  have htab : scan .lineStart "\t" = some (.lineStart, []) := rfl
  have henum : scanLine .lineStart m.enumerators = some (.lineStart, namesTokens m.stateNames) :=
    scanLine_append htab (scanLine_enumerators (List.ne_nil_of_mem hm.start)
      (fun _ hn => hm.isUsable_of_mem hn) (.inr rfl))
  have htail : scanLines .lineStart
      ["\x7d;", [], "extern void stateRun();", "extern void stateTransition();", [], "#endif"]
      = some (.lineStart, [.closeBrace, .semicolon] ++ (Decl.announced .void runName).tokens
          ++ (Decl.announced .void transitionName).tokens) := rfl
  have hall : scanLines .lineStart m.headerBody = _ :=
    scanLines_append hlead (scanLines_cons henum htail)
  rw [hall]
  simp [Machine.interface, Decl.tokens]

/-- **The header is the interface of the machine**, with or without a diagram. -/
theorem parse_header (layout : SourceLayout) {m : Machine} (hm : m.WellFormed) :
    parse (layout.header m) = some m.interface := by
  have hguard : scanLines .lineStart layout.guardLines = some (.lineStart, []) :=
    scanLines_cons (scanLine_directive _) (scanLines_cons (scanLine_directive _) rfl)
  have hdiagram : scanLines .lineStart
      (if layout.diagram then m.diagramComment .ascii ++ [[]] else []) = some (.lineStart, []) := by
    split
    · exact scanLines_append (scanLines_diagramComment hm) rfl
    · rfl
  have hall := scanLines_append (scanLines_append hguard hdiagram) (scanLines_headerBody hm)
  refine parse_of_tokenize ?_ (tokenize_of_scanLines hall)
  simp only [Machine.interface, List.mem_cons, List.not_mem_nil, or_false]
  rintro d (rfl | rfl | rfl)
  · exact List.ne_nil_of_mem hm.start
  · trivial
  · trivial

theorem scanLines_implementation (layout : SourceLayout) {m : Machine} (hm : m.WellFormed) :
    scanLines .lineStart (layout.implementation m)
      = some (.lineStart, m.program.flatMap Decl.tokens) := by
  have hincludes : scanLines .lineStart layout.includes = some (.lineStart, []) :=
    scanLines_cons (scanLine_directive _) (scanLines_cons (scanLine_directive _) rfl)
  have hactions := scanLines_map fun a ha =>
    scanLine_actionDeclaration (hm.isUsable_of_mem_actions ha)
  have hpredicates := scanLines_map fun p hp =>
    scanLine_predicateDeclaration (hm.isUsable_of_mem_predicateNames hp)
  have hcomment : scanLine .lineStart "// the current state" = some (.lineStart, []) := rfl
  have hvariable : scanLines .lineStart m.stateVariable
      = some (.lineStart, (Decl.global stateTag currentVariable m.start).tokens) :=
    scanLines_cons hcomment
      (scanLines_cons (scanLine_stateVariable (hm.isUsable_of_mem hm.start)) rfl)
  have hfunctions := scanLines_append (Machine.scanLines_runFunction hm)
    (scanLines_blank (Machine.scanLines_transitionFunction hm))
  have hall : scanLines .lineStart (layout.implementation m) = _ :=
    scanLines_append hincludes (scanLines_blank (scanLines_append hactions
      (scanLines_blank (scanLines_append hpredicates
        (scanLines_blank (scanLines_append hvariable (scanLines_blank hfunctions)))))))
  rw [hall, Machine.program, List.flatMap_append, List.flatMap_append]
  simp [Machine.definitions]

end SourceLayout

/-! ## Labels stand in a `switch` -/

theorem Transition.wellPlaced_code (ts : List Transition) {b : Bool} {rest : Code}
    (h : rest.WellPlaced b) : (code ts rest).WellPlaced b := by
  induction ts generalizing b rest with
  | nil => exact h
  | cons t ts ih =>
    rw [code]
    split
    · exact h
    · exact ⟨trivial, ih trivial, h⟩

theorem State.wellPlaced_runCode (st : State) {rest : Code} (h : rest.WellPlaced true) :
    (st.runCode rest).WellPlaced true :=
  ⟨rfl, h⟩

theorem State.wellPlaced_transitionCode (st : State) {rest : Code} (h : rest.WellPlaced true) :
    (st.transitionCode rest).WellPlaced true :=
  ⟨rfl, Transition.wellPlaced_code st.transitions h⟩

theorem wellPlaced_foldr {f : State → Code → Code}
    (hf : ∀ st rest, rest.WellPlaced true → (f st rest).WellPlaced true) (states : List State) :
    (states.foldr f .done).WellPlaced true := by
  induction states with
  | nil => trivial
  | cons st rest ih => exact hf st _ ih

theorem Machine.wellPlaced_program (m : Machine) : ∀ d ∈ m.program, d.WellPlaced := by
  intro d hd
  rw [Machine.program, List.mem_append, List.mem_append] at hd
  rcases hd with hd | hd | hd
  · obtain ⟨a, -, rfl⟩ := List.mem_map.mp hd
    trivial
  · obtain ⟨p, -, rfl⟩ := List.mem_map.mp hd
    trivial
  · simp only [Machine.definitions, List.mem_cons, List.not_mem_nil, or_false] at hd
    rcases hd with rfl | rfl | rfl
    · trivial
    · exact ⟨wellPlaced_foldr (fun st _ h => st.wellPlaced_runCode h) m.states, trivial⟩
    · exact ⟨wellPlaced_foldr (fun st _ h => st.wellPlaced_transitionCode h) m.states,
        trivial, trivial, trivial⟩

/-- **The implementation is the program of the machine.** -/
theorem SourceLayout.parse_implementation (layout : SourceLayout) {m : Machine}
    (hm : m.WellFormed) : parse (layout.implementation m) = some m.program :=
  parse_of_tokenize m.wellPlaced_program
    (tokenize_of_scanLines (layout.scanLines_implementation hm))

end StateForge
