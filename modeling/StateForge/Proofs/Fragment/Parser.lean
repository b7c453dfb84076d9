import StateForge.Proofs.Fragment.Lexer

/-!
# Programs of the C fragment

The fragment has enumerations, variables of an enumeration type, functions without parameters,
`switch` with `case` and `break`, chains of `if`, `else if` and `else`, assignments, calls, `!` and
`!=`. This file says what its programs are, how each is written as a list of tokens, and how a list
of tokens is read.

`Code` is a sequence of statements. It is one type rather than a statement and a list of statements,
so that a proof about it is one induction. A `case` label is a statement of its own, as in C:
control that reaches it goes on behind it, and only a `break` keeps one case from running into the
next.

The reader refuses a `case` that does not stand directly in a `switch`, where C would let control
jump into the middle of a block. The main result is `parse_of_tokenize`: what is written as tokens
is read back as it was.
-/

set_option autoImplicit false

namespace StateForge
namespace Fragment

/-! ## Programs -/

/-- A variable or an enumerator, the result of a call, or the negation of an operand. -/
inductive Operand where
  | name (x : Text)
  | call (f : Text)
  | negation (o : Operand)
deriving DecidableEq

/-- An operand, or the question whether two operands differ. -/
inductive Expr where
  | operand (o : Operand)
  | differ (a b : Operand)
deriving DecidableEq

/-- A sequence of statements: the first one, and those that follow it. -/
inductive Code where
  | done
  | assign (x : Text) (e : Expr) (rest : Code)
  | call (f : Text) (rest : Code)
  /-- Leaves the enclosing `switch`. -/
  | leave (rest : Code)
  /-- A `case` label. -/
  | label (l : Text) (rest : Code)
  | branch (c : Expr) (yes no rest : Code)
  /-- A `switch`. -/
  | choose (e : Expr) (body rest : Code)
deriving DecidableEq

/-- What a function gives back. -/
inductive ReturnType where
  | void
  | bool
deriving DecidableEq

/-- A variable of a function, with its initial value. -/
structure Local where
  /-- The enumeration that its values come from. -/
  tag : Text
  name : Text
  init : Expr
deriving DecidableEq

/-- A declaration of a source. -/
inductive Decl where
  | enumeration (tag : Text) (names : List Text)
  /-- A function that is announced, but not defined, here. -/
  | announced (type : ReturnType) (f : Text)
  /-- A variable of the source, with its initial value. -/
  | global (tag x value : Text)
  | function (f : Text) (locals : List Local) (body : Code)
deriving DecidableEq

/-! ## How a program is written -/

def Operand.tokens : Operand → List Token
  | name x => [.name x]
  | call f => [.name f, .openParen, .closeParen]
  | negation o => .bang :: o.tokens

def Expr.tokens : Expr → List Token
  | operand o => o.tokens
  | differ a b => a.tokens ++ .notEqual :: b.tokens

namespace Code

/-- Is this one `if` and nothing else? After an `else` it is written without braces. -/
def isBranch : Code → Bool
  | branch _ _ _ done => true
  | _ => false

/-- The alternative of an `if`, given its own tokens; nothing if there is none. -/
def elseTokens (no : Code) (own : List Token) : List Token :=
  if no = done then []
  else if no.isBranch then .elseWord :: own
  else .elseWord :: .openBrace :: (own ++ [.closeBrace])

/-- What follows the parenthesis of an `if`, given the tokens of its two parts. -/
def branchTokens (c : Expr) (yes alternative : List Token) : List Token :=
  c.tokens ++ .closeParen :: .openBrace :: (yes ++ .closeBrace :: alternative)

def tokens : Code → List Token
  | done => []
  | assign x e rest => .name x :: .assign :: (e.tokens ++ .semicolon :: rest.tokens)
  | call f rest => .name f :: .openParen :: .closeParen :: .semicolon :: rest.tokens
  | leave rest => .breakWord :: .semicolon :: rest.tokens
  | label l rest => .caseWord :: .name l :: .colon :: rest.tokens
  | branch c yes no rest =>
    .ifWord :: .openParen ::
      (branchTokens c yes.tokens (elseTokens no no.tokens) ++ rest.tokens)
  | choose e body rest =>
    .switchWord :: .openParen ::
      (e.tokens ++ .closeParen :: .openBrace :: (body.tokens ++ .closeBrace :: rest.tokens))

/-- Labels stand directly in a `switch`; `inSwitch` says whether this code does. -/
def WellPlaced : Bool → Code → Prop
  | _, done => True
  | b, assign _ _ rest => rest.WellPlaced b
  | b, call _ rest => rest.WellPlaced b
  | b, leave rest => rest.WellPlaced b
  | b, label _ rest => b = true ∧ rest.WellPlaced b
  | b, branch _ yes no rest => yes.WellPlaced false ∧ no.WellPlaced false ∧ rest.WellPlaced b
  | b, choose _ body rest => body.WellPlaced true ∧ rest.WellPlaced b

end Code

def Local.tokens (l : Local) : List Token :=
  .enumWord :: .name l.tag :: .name l.name :: .assign :: (l.init.tokens ++ [.semicolon])

/-- The names of an enumeration, divided by commas. -/
def namesTokens : List Text → List Token
  | [] => []
  | [n] => [.name n]
  | n :: rest => .name n :: .comma :: namesTokens rest

def ReturnType.token : ReturnType → Token
  | void => .voidWord
  | bool => .boolWord

def Decl.tokens : Decl → List Token
  | enumeration tag names =>
    .enumWord :: .name tag :: .openBrace :: (namesTokens names ++ [.closeBrace, .semicolon])
  | announced type f =>
    [.externWord, type.token, .name f, .openParen, .closeParen, .semicolon]
  | global tag x value =>
    [.staticWord, .enumWord, .name tag, .name x, .assign, .name value, .semicolon]
  | function f locals body =>
    .voidWord :: .name f :: .openParen :: .closeParen :: .openBrace ::
      (locals.flatMap Local.tokens ++ (body.tokens ++ [.closeBrace]))

/-- What is asked of a declaration beyond its type: an enumeration is not empty, and labels stand
in a `switch`. -/
def Decl.WellPlaced : Decl → Prop
  | enumeration _ names => names ≠ []
  | announced _ _ => True
  | global _ _ _ => True
  | function _ _ body => body.WellPlaced false

/-! ## How a program is read

Each reader takes the tokens from the front of a list and gives back what is left. Statements nest,
so their reader counts down from a number that the length of the source always exceeds. -/

/-- Takes one given token. -/
def eat (t : Token) : List Token → Option (List Token)
  | [] => none
  | u :: ts => if u = t then some ts else none

def operand? : List Token → Option (Operand × List Token)
  | .bang :: ts => (operand? ts).map fun r => (.negation r.1, r.2)
  | .name f :: .openParen :: .closeParen :: ts => some (.call f, ts)
  | .name x :: ts => some (.name x, ts)
  | _ => none

/-- An expression with the token that ends it. -/
def exprTo? (stop : Token) (ts : List Token) : Option (Expr × List Token) :=
  (operand? ts).bind fun r =>
    match r.2 with
    | .notEqual :: us =>
      (operand? us).bind fun r' => (eat stop r'.2).map fun vs => (.differ r.1 r'.1, vs)
    | us => (eat stop us).map fun vs => (.operand r.1, vs)

mutual

/-- Statements up to the brace that closes their block, which is taken too. -/
def code? : Nat → Bool → List Token → Option (Code × List Token)
  | 0, _, _ => none
  | fuel + 1, inSwitch, ts =>
    match ts with
    | .closeBrace :: ts => some (.done, ts)
    | .name x :: .assign :: ts =>
      (exprTo? .semicolon ts).bind fun e =>
        (code? fuel inSwitch e.2).map fun rest => (.assign x e.1 rest.1, rest.2)
    | .name f :: .openParen :: .closeParen :: .semicolon :: ts =>
      (code? fuel inSwitch ts).map fun rest => (.call f rest.1, rest.2)
    | .breakWord :: .semicolon :: ts =>
      (code? fuel inSwitch ts).map fun rest => (.leave rest.1, rest.2)
    | .caseWord :: .name l :: .colon :: ts =>
      if inSwitch then (code? fuel inSwitch ts).map fun rest => (.label l rest.1, rest.2)
      else none
    | .ifWord :: .openParen :: ts =>
      (branch? fuel ts).bind fun b =>
        (code? fuel inSwitch b.2.2.2).map fun rest => (.branch b.1 b.2.1 b.2.2.1 rest.1, rest.2)
    | .switchWord :: .openParen :: ts =>
      (exprTo? .closeParen ts).bind fun e =>
        (eat .openBrace e.2).bind fun us =>
          (code? fuel true us).bind fun body =>
            (code? fuel inSwitch body.2).map fun rest => (.choose e.1 body.1 rest.1, rest.2)
    | _ => none

/-- What follows the parenthesis of an `if`: its condition, its two parts, and what is left. -/
def branch? : Nat → List Token → Option (Expr × Code × Code × List Token)
  | 0, _ => none
  | fuel + 1, ts =>
    (exprTo? .closeParen ts).bind fun c =>
      (eat .openBrace c.2).bind fun us =>
        (code? fuel false us).bind fun yes =>
          match yes.2 with
          | .elseWord :: .ifWord :: .openParen :: vs =>
            (branch? fuel vs).map fun b =>
              (c.1, yes.1, .branch b.1 b.2.1 b.2.2.1 .done, b.2.2.2)
          | .elseWord :: .openBrace :: vs =>
            (code? fuel false vs).map fun no => (c.1, yes.1, no.1, no.2)
          | vs => some (c.1, yes.1, .done, vs)

end

/-- The names of an enumeration up to its closing brace, which is taken too. -/
def names? : List Token → Option (List Text × List Token)
  | .name n :: .comma :: ts => (names? ts).map fun r => (n :: r.1, r.2)
  | .name n :: .closeBrace :: ts => some ([n], ts)
  | _ => none

/-- The variables at the beginning of a function. -/
def locals? : Nat → List Token → Option (List Local × List Token)
  | 0, _ => none
  | fuel + 1, ts =>
    match ts with
    | .enumWord :: .name tag :: .name x :: .assign :: us =>
      (exprTo? .semicolon us).bind fun e =>
        (locals? fuel e.2).map fun rest => (⟨tag, x, e.1⟩ :: rest.1, rest.2)
    | us => some ([], us)

/-- One declaration. -/
def decl? (fuel : Nat) : List Token → Option (Decl × List Token)
  | .enumWord :: .name tag :: .openBrace :: ts =>
    (names? ts).bind fun r => (eat .semicolon r.2).map fun us => (.enumeration tag r.1, us)
  | .externWord :: .voidWord :: .name f :: .openParen :: .closeParen :: .semicolon :: ts =>
    some (.announced .void f, ts)
  | .externWord :: .boolWord :: .name f :: .openParen :: .closeParen :: .semicolon :: ts =>
    some (.announced .bool f, ts)
  | .staticWord :: .enumWord :: .name tag :: .name x :: .assign :: .name value :: .semicolon ::
      ts =>
    some (.global tag x value, ts)
  | .voidWord :: .name f :: .openParen :: .closeParen :: .openBrace :: ts =>
    (locals? fuel ts).bind fun l =>
      (code? fuel false l.2).map fun body => (.function f l.1 body.1, body.2)
  | _ => none

/-- All declarations of a source. -/
def decls? : Nat → List Token → Option (List Decl)
  | _, [] => some []
  | 0, _ :: _ => none
  | fuel + 1, t :: ts =>
    (decl? fuel (t :: ts)).bind fun d => (decls? fuel d.2).map fun rest => d.1 :: rest

/-- The program that some lines are. -/
def parse (lines : List Text) : Option (List Decl) :=
  (tokenize lines).bind fun ts => decls? (ts.length + 1) ts

/-! ## What is written is read back -/

theorem eat_self (t : Token) (ts : List Token) : eat t (t :: ts) = some ts := by
  rw [eat, if_pos rfl]

theorem operand?_tokens (o : Operand) {us : List Token} (h : us.head? ≠ some .openParen) :
    operand? (o.tokens ++ us) = some (o, us) := by
  induction o with
  | name x =>
    cases us with
    | nil => rfl
    | cons t ts =>
      cases t
      case openParen => exact absurd rfl h
      all_goals rfl
  | call f => rfl
  | negation o ih =>
    rw [Operand.tokens, List.cons_append, operand?, ih]
    rfl

/-- The tokens that end an expression are no part of one. -/
theorem exprTo?_tokens (e : Expr) {stop : Token} (hs : stop = .semicolon ∨ stop = .closeParen)
    (rest : List Token) : exprTo? stop (e.tokens ++ stop :: rest) = some (e, rest) := by
  cases e with
  | operand o =>
    rw [Expr.tokens, exprTo?, operand?_tokens o (by rcases hs with rfl | rfl <;> simp),
      Option.bind_some]
    rcases hs with rfl | rfl <;> simp [eat_self]
  | differ a b =>
    rw [Expr.tokens, List.append_assoc, List.cons_append, exprTo?,
      operand?_tokens a (by simp), Option.bind_some]
    simp only
    rw [operand?_tokens b (by rcases hs with rfl | rfl <;> simp), Option.bind_some, eat_self]
    rfl

namespace Code

/-- The code is read back from its tokens, with the brace that closes its block. -/
def ReadsBack (c : Code) : Prop :=
  ∀ (inSwitch : Bool) (fuel : Nat) (rest : List Token), c.WellPlaced inSwitch →
    c.tokens.length < fuel → code? fuel inSwitch (c.tokens ++ .closeBrace :: rest) = some (c, rest)

/-- An `if` with these parts is read back, whatever follows it, unless that is another `else`. -/
def BranchReadsBack (c : Expr) (yes no : Code) : Prop :=
  ∀ (fuel : Nat) (us : List Token), us.head? ≠ some .elseWord →
    (branchTokens c yes.tokens (elseTokens no no.tokens)).length < fuel →
    branch? fuel (branchTokens c yes.tokens (elseTokens no no.tokens) ++ us)
      = some (c, yes, no, us)

/-- A sequence of statements does not begin with `else`, and neither does the end of a block. -/
theorem head?_tokens_ne_elseWord (c : Code) (rest : List Token) :
    (c.tokens ++ .closeBrace :: rest).head? ≠ some .elseWord := by
  cases c <;> simp [tokens]

/-- An `if` is read back if its two parts are. An alternative that is itself an `if` stands without
braces, so it is read by the reader of an `if` and not by that of a block. -/
theorem branchReadsBack {c : Expr} {yes no : Code} (hy : yes.ReadsBack)
    (hyp : yes.WellPlaced false) (hn : no.ReadsBack) (hnp : no.WellPlaced false)
    (hchain : ∀ c' yes' no', no = branch c' yes' no' done → BranchReadsBack c' yes' no') :
    BranchReadsBack c yes no := by
  intro fuel us hus hlen
  cases fuel with
  | zero => exact absurd hlen (Nat.not_lt_zero _)
  | succ fuel =>
    simp only [branchTokens, List.length_append, List.length_cons] at hlen
    have hyes := fun rest => hy false fuel rest hyp (by omega)
    rw [branchTokens, List.append_assoc, List.cons_append, List.cons_append, List.append_assoc,
      List.cons_append, branch?, exprTo?_tokens c (.inr rfl), Option.bind_some, eat_self,
      Option.bind_some, hyes, Option.bind_some]
    rcases Decidable.em (no = done) with rfl | hdone
    · -- No alternative: the reader looks one token ahead and leaves it.
      rw [elseTokens, if_pos rfl, List.nil_append]
      cases us with
      | nil => rfl
      | cons t ts =>
        cases t
        case elseWord => exact absurd rfl hus
        all_goals rfl
    · rw [elseTokens, if_neg hdone] at hlen ⊢
      by_cases hb : no.isBranch = true
      · rw [if_pos hb] at hlen ⊢
        obtain ⟨c', yes', no', rfl⟩ : ∃ c' yes' no', no = branch c' yes' no' done := by
          unfold isBranch at hb
          split at hb
          · exact ⟨_, _, _, rfl⟩
          · exact absurd hb (by simp)
        have hlen' : (branchTokens c' yes'.tokens (elseTokens no' no'.tokens)).length < fuel := by
          simp only [tokens, List.length_cons, List.length_append] at hlen
          omega
        simp only [tokens, List.append_nil, List.cons_append]
        rw [hchain c' yes' no' rfl fuel us hus hlen', Option.map_some]
      · rw [if_neg hb] at hlen ⊢
        simp only [List.length_cons, List.length_append] at hlen
        have hno := hn false fuel us hnp (by omega)
        simp only [List.cons_append, List.append_assoc, List.nil_append]
        rw [hno, Option.map_some]

/-- The reader of a block always has one step to spare. -/
theorem ReadsBack.of_succ {c : Code}
    (h : ∀ (inSwitch : Bool) (fuel : Nat) (rest : List Token), c.WellPlaced inSwitch →
      c.tokens.length ≤ fuel →
      code? (fuel + 1) inSwitch (c.tokens ++ .closeBrace :: rest) = some (c, rest)) :
    c.ReadsBack := by
  intro inSwitch fuel rest hp hlen
  cases fuel with
  | zero => exact absurd hlen (Nat.not_lt_zero _)
  | succ fuel => exact h inSwitch fuel rest hp (Nat.le_of_lt_succ hlen)

/-- **Statements are read back from their tokens.** The induction carries the same fact about an
`if` on its own, for the alternatives that are written without braces. -/
theorem readsBack (code : Code) :
    code.ReadsBack ∧ ∀ c yes no, code = branch c yes no done → code.WellPlaced false →
      BranchReadsBack c yes no := by
  induction code with
  | done =>
    refine ⟨.of_succ ?_, fun _ _ _ h => absurd h (by simp)⟩
    intro inSwitch fuel rest _ _
    rfl
  | assign x e k ih =>
    refine ⟨.of_succ ?_, fun _ _ _ h => absurd h (by simp)⟩
    intro inSwitch fuel rest hp hlen
    simp only [tokens, List.length_cons, List.length_append] at hlen
    have hk := ih.1 inSwitch fuel rest hp (by omega)
    simp only [tokens, List.cons_append, List.append_assoc, code?]
    rw [exprTo?_tokens e (.inl rfl), Option.bind_some, hk, Option.map_some]
  | call f k ih =>
    refine ⟨.of_succ ?_, fun _ _ _ h => absurd h (by simp)⟩
    intro inSwitch fuel rest hp hlen
    simp only [tokens, List.length_cons] at hlen
    have hk := ih.1 inSwitch fuel rest hp (by omega)
    simp only [tokens, List.cons_append, code?]
    rw [hk, Option.map_some]
  | leave k ih =>
    refine ⟨.of_succ ?_, fun _ _ _ h => absurd h (by simp)⟩
    intro inSwitch fuel rest hp hlen
    simp only [tokens, List.length_cons] at hlen
    have hk := ih.1 inSwitch fuel rest hp (by omega)
    simp only [tokens, List.cons_append, code?]
    rw [hk, Option.map_some]
  | label l k ih =>
    refine ⟨.of_succ ?_, fun _ _ _ h => absurd h (by simp)⟩
    intro inSwitch fuel rest hp hlen
    obtain ⟨rfl, hp⟩ := hp
    simp only [tokens, List.length_cons] at hlen
    have hk := ih.1 true fuel rest hp (by omega)
    simp only [tokens, List.cons_append, code?, if_true]
    rw [hk, Option.map_some]
  | branch c yes no k ihy ihn ihk =>
    have hbranch : yes.WellPlaced false → no.WellPlaced false → BranchReadsBack c yes no :=
      fun hyp hnp =>
        branchReadsBack ihy.1 hyp ihn.1 hnp fun c' yes' no' h => ihn.2 c' yes' no' h hnp
    refine ⟨.of_succ ?_, ?_⟩
    · intro inSwitch fuel rest hp hlen
      obtain ⟨hyp, hnp, hkp⟩ := hp
      simp only [tokens, List.length_cons, List.length_append] at hlen
      have hk := ihk.1 inSwitch fuel rest hkp (by omega)
      have hb := hbranch hyp hnp fuel (k.tokens ++ .closeBrace :: rest)
        (head?_tokens_ne_elseWord k rest) (by omega)
      simp only [tokens, List.cons_append, List.append_assoc, code?]
      rw [hb, Option.bind_some, hk, Option.map_some]
    · intro c' yes' no' h hp
      cases h
      exact hbranch hp.1 hp.2.1
  | choose e body k ihb ihk =>
    refine ⟨.of_succ ?_, fun _ _ _ h => absurd h (by simp)⟩
    intro inSwitch fuel rest hp hlen
    obtain ⟨hbp, hkp⟩ := hp
    simp only [tokens, List.length_cons, List.length_append] at hlen
    have hb := ihb.1 true fuel (k.tokens ++ .closeBrace :: rest) hbp (by omega)
    have hk := ihk.1 inSwitch fuel rest hkp (by omega)
    simp only [tokens, List.cons_append, List.append_assoc, code?]
    rw [exprTo?_tokens e (.inr rfl), Option.bind_some, eat_self, Option.bind_some, hb,
      Option.bind_some, hk, Option.map_some]

end Code

theorem names?_tokens {names : List Text} (h : names ≠ []) (rest : List Token) :
    names? (namesTokens names ++ .closeBrace :: rest) = some (names, rest) := by
  induction names with
  | nil => exact absurd rfl h
  | cons n ns ih =>
    cases ns with
    | nil => rfl
    | cons n' ns' =>
      rw [namesTokens, List.cons_append, List.cons_append, names?, ih (by simp)]
      · rfl
      · simp

/-- No statement begins with the word that begins the declaration of a variable. -/
theorem locals?_tokens_of_nil {fuel : Nat} (hfuel : 0 < fuel) (body : Code) (rest : List Token) :
    locals? fuel (body.tokens ++ .closeBrace :: rest)
      = some ([], body.tokens ++ .closeBrace :: rest) := by
  cases fuel with
  | zero => exact absurd hfuel (Nat.lt_irrefl _)
  | succ fuel => cases body <;> rfl

theorem locals?_tokens {fuel : Nat} {locals : List Local} (hfuel : locals.length < fuel)
    (body : Code) (rest : List Token) :
    locals? fuel (locals.flatMap Local.tokens ++ (body.tokens ++ .closeBrace :: rest))
      = some (locals, body.tokens ++ .closeBrace :: rest) := by
  induction locals generalizing fuel with
  | nil => exact locals?_tokens_of_nil hfuel body rest
  | cons l ls ih =>
    cases fuel with
    | zero => exact absurd hfuel (Nat.not_lt_zero _)
    | succ fuel =>
      have hls := ih (Nat.lt_of_succ_lt_succ hfuel)
      simp only [List.flatMap_cons, Local.tokens, List.cons_append, List.append_assoc,
        List.nil_append, locals?]
      rw [exprTo?_tokens l.init (.inl rfl), Option.bind_some, hls, Option.map_some]

theorem length_le_flatMap_tokens (locals : List Local) :
    locals.length ≤ (locals.flatMap Local.tokens).length := by
  induction locals with
  | nil => simp
  | cons l ls ih =>
    simp only [List.flatMap_cons, List.length_append, List.length_cons, Local.tokens]
    omega

theorem decl?_tokens {d : Decl} (hd : d.WellPlaced) {fuel : Nat} (hfuel : d.tokens.length ≤ fuel)
    (rest : List Token) : decl? fuel (d.tokens ++ rest) = some (d, rest) := by
  cases d with
  | enumeration tag names =>
    simp only [Decl.tokens, List.cons_append, List.append_assoc, List.nil_append, decl?]
    rw [names?_tokens hd, Option.bind_some, eat_self, Option.map_some]
  | announced type f => cases type <;> rfl
  | global tag x value => rfl
  | function f locals body =>
    simp only [Decl.tokens, List.length_cons, List.length_append] at hfuel
    have hlocals := length_le_flatMap_tokens locals
    simp only [Decl.tokens, List.cons_append, List.append_assoc, List.nil_append, decl?]
    rw [locals?_tokens (by omega), Option.bind_some,
      body.readsBack.1 false fuel rest hd (by omega), Option.map_some]

theorem decls?_tokens {ds : List Decl} (hds : ∀ d ∈ ds, d.WellPlaced) {fuel : Nat}
    (hfuel : (ds.flatMap Decl.tokens).length < fuel) :
    decls? fuel (ds.flatMap Decl.tokens) = some ds := by
  induction ds generalizing fuel with
  | nil => cases fuel <;> rfl
  | cons d ds ih =>
    obtain ⟨t, ts, ht⟩ : ∃ t ts, d.tokens = t :: ts := by
      cases d <;> exact ⟨_, _, rfl⟩
    cases fuel with
    | zero => exact absurd hfuel (Nat.not_lt_zero _)
    | succ fuel =>
      simp only [List.flatMap_cons, List.length_append, ht, List.length_cons] at hfuel
      have hd : decl? fuel (d.tokens ++ ds.flatMap Decl.tokens)
          = some (d, ds.flatMap Decl.tokens) :=
        decl?_tokens (hds d (by simp)) (by rw [ht, List.length_cons]; omega) _
      have hrest : decls? fuel (ds.flatMap Decl.tokens) = some ds :=
        ih (fun d' hd' => hds d' (List.mem_cons_of_mem _ hd')) (by omega)
      rw [ht, List.cons_append] at hd
      rw [List.flatMap_cons, ht, List.cons_append, decls?, hd, Option.bind_some, hrest,
        Option.map_some]

/-- **A source that is cut into the tokens of a program is read as that program.** -/
theorem parse_of_tokenize {lines : List Text} {ds : List Decl} (hds : ∀ d ∈ ds, d.WellPlaced)
    (h : tokenize lines = some (ds.flatMap Decl.tokens)) : parse lines = some ds := by
  rw [parse, h, Option.bind_some]
  exact decls?_tokens hds (Nat.lt_succ_self _)

end Fragment
end StateForge
