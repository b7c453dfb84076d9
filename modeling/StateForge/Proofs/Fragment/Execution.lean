import StateForge.Proofs.Behaviour
import StateForge.Proofs.Fragment.Parser

/-!
# Running programs of the C fragment

A program is called from outside, one function at a time. Its variables hold enumerators, which are
told apart by their names, so two enumerators are equal exactly if they are the same. A function of
another source is not run: a call of it is an event, and if it gives a truth value, the `World` says
which.

The rules follow C where a program could go wrong.

* A name means the variable of the function if there is one, else the variable of the source, else
  the enumerator. A function that a variable hides cannot be called.
* A `switch` jumps behind the label of its value and then runs on, through the labels that follow,
  to the next `break` or to its end. Its labels must mean enumerators, no two of them the same.
* Writing a variable of the source can be seen from outside; writing a variable of a function
  cannot.

What has no meaning in C has none here: `none` stands for a program that does not compile or goes
beyond the fragment.
-/

set_option autoImplicit false

namespace StateForge
namespace Fragment

/-- The variables of a running program, and what has happened so far. -/
structure Memory where
  globals : List (Text × Text)
  locals : List (Text × Text)
  trace : List Event
deriving DecidableEq

/-- What an expression can give. -/
inductive Value where
  | enumerator (n : Text)
  | truth (b : Bool)
deriving DecidableEq

/-- How a sequence of statements ends: at its end, or with a `break`. -/
inductive Flow where
  | onward
  | left
deriving DecidableEq

namespace Memory

/-- The value of a variable; those of the function come first. -/
def read? (mem : Memory) (x : Text) : Option Text :=
  (mem.locals.lookup x).or (mem.globals.lookup x)

/-- Puts a value in the place of the one that a variable has. -/
def put (x value : Text) (vars : List (Text × Text)) : List (Text × Text) :=
  vars.map fun v => if v.1 = x then (x, value) else v

/-- Gives a variable another value. -/
def write? (mem : Memory) (x value : Text) : Option Memory :=
  if (mem.locals.lookup x).isSome then some { mem with locals := put x value mem.locals }
  else if (mem.globals.lookup x).isSome then
    some { mem with globals := put x value mem.globals, trace := mem.trace ++ [.stored x value] }
  else none

/-- The memory after an event. -/
def record (mem : Memory) (e : Event) : Memory :=
  { mem with trace := mem.trace ++ [e] }

end Memory

/-! ## What is declared -/

/-- The enumerators of a program. -/
def enumerators (ds : List Decl) : List Text :=
  ds.flatMap fun
    | .enumeration _ names => names
    | _ => []

/-- The enumerations of a program. -/
def tags (ds : List Decl) : List Text :=
  ds.filterMap fun
    | .enumeration tag _ => some tag
    | _ => none

/-- The variables of a program, each with its enumeration and its initial value. -/
def globals (ds : List Decl) : List (Text × Text × Text) :=
  ds.filterMap fun
    | .global tag x value => some (tag, x, value)
    | _ => none

/-- The function of a program with a given name. -/
def function? (ds : List Decl) (f : Text) : Option (List Local × Code) :=
  ds.findSome? fun
    | .function g locals body => if g = f then some (locals, body) else none
    | _ => none

/-- Is this a function of another source? -/
def isForeign (ds : List Decl) (type : ReturnType) (f : Text) : Bool :=
  decide (.announced type f ∈ ds) && (function? ds f).isNone

/-! ## Expressions -/

section

variable (ds : List Decl) (world : World)

/-- The value of an operand. -/
def Operand.eval? (mem : Memory) : Operand → Option (Value × Memory)
  | name x =>
    match mem.read? x with
    | some value => some (.enumerator value, mem)
    | none => if x ∈ enumerators ds then some (.enumerator x, mem) else none
  | call f =>
    if (mem.read? f).isNone && isForeign ds .bool f then
      some (.truth (world mem.trace f), mem.record (.asked f (world mem.trace f)))
    else none
  | negation o =>
    match o.eval? mem with
    | some (.truth b, mem) => some (.truth !b, mem)
    | _ => none

/-- The value of an expression; operands are evaluated from left to right. -/
def Expr.eval? (mem : Memory) : Expr → Option (Value × Memory)
  | operand o => o.eval? ds world mem
  | differ a b =>
    match a.eval? ds world mem with
    | some (.enumerator v, mem) =>
      match b.eval? ds world mem with
      | some (.enumerator w, mem) => some (.truth (v != w), mem)
      | _ => none
    | _ => none

/-! ## Statements -/

/-- The labels of a `switch`. -/
def Code.labels : Code → List Text
  | done => []
  | assign _ _ rest => rest.labels
  | call _ rest => rest.labels
  | leave rest => rest.labels
  | label l rest => l :: rest.labels
  | branch _ _ _ rest => rest.labels
  | choose _ _ rest => rest.labels

/-- Do the labels of a `switch` mean enumerators, and no two of them the same? -/
def Code.hasGoodLabels (mem : Memory) (body : Code) : Bool :=
  decide body.labels.Nodup &&
    body.labels.all fun l => (mem.read? l).isNone && decide (l ∈ enumerators ds)

/-- Runs statements. While a label is sought, everything in front of it is passed over. -/
def Code.exec? : Code → Option Text → Memory → Option (Flow × Memory)
  | done, _, mem => some (.onward, mem)
  | assign x e rest, none, mem =>
    match e.eval? ds world mem with
    | some (.enumerator v, mem) => (mem.write? x v).bind fun mem => rest.exec? none mem
    | _ => none
  | assign _ _ rest, sought, mem => rest.exec? sought mem
  | call f rest, none, mem =>
    if (mem.read? f).isNone && isForeign ds .void f then rest.exec? none (mem.record (.called f))
    else none
  | call _ rest, sought, mem => rest.exec? sought mem
  | leave _, none, mem => some (.left, mem)
  | leave rest, sought, mem => rest.exec? sought mem
  | label _ rest, none, mem => rest.exec? none mem
  | label l rest, some sought, mem => rest.exec? (if l = sought then none else some sought) mem
  | branch c yes no rest, none, mem =>
    match c.eval? ds world mem with
    | some (.truth b, mem) =>
      match (if b then yes.exec? none mem else no.exec? none mem) with
      | some (.onward, mem) => rest.exec? none mem
      | some (.left, mem) => some (.left, mem)
      | none => none
    | _ => none
  | branch _ _ _ rest, sought, mem => rest.exec? sought mem
  | choose e body rest, none, mem =>
    match e.eval? ds world mem with
    | some (.enumerator v, mem) =>
      if body.hasGoodLabels ds mem then
        (body.exec? (some v) mem).bind fun r => rest.exec? none r.2
      else none
    | _ => none
  | choose _ _ rest, sought, mem => rest.exec? sought mem

/-! ## Calls from outside -/

/-- Gives the variables of a function their initial values, in order. -/
def enter? : List Local → Memory → Option Memory
  | [], mem => some mem
  | l :: rest, mem =>
    if l.tag ∈ tags ds then
      match l.init.eval? ds world mem with
      | some (.enumerator v, mem) => enter? rest { mem with locals := (l.name, v) :: mem.locals }
      | _ => none
    else none

/-- Calls a function of the program. A `break` must not leave it. -/
def call? (f : Text) (mem : Memory) : Option Memory :=
  (function? ds f).bind fun fn =>
    (enter? ds world fn.1 mem).bind fun entered =>
      match fn.2.exec? ds world none entered with
      | some (.onward, mem) => some { mem with locals := [] }
      | _ => none

/-- The memory of a program before it is called: its variables start as enumerators. -/
def initial? : Option Memory :=
  ((globals ds).mapM fun g =>
    if g.1 ∈ tags ds ∧ g.2.2 ∈ enumerators ds then some g.2 else none).map fun vars =>
      ⟨vars, [], []⟩

/-- Calls functions of the program one after the other, from its start. -/
def execute? (calls : List Text) : Option Memory :=
  (initial? ds).bind fun mem => calls.foldlM (fun mem f => call? ds world f mem) mem

end

end Fragment
end StateForge
