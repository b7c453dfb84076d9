import StateForge.Yaml.Decode
import Mathlib.Data.List.Forall2
import Mathlib.Data.List.ReduceOption

/-!
# Looking things up in the nodes of a YAML text

What a node stands for, and which value a mapping has for a name, as a matter of the nodes alone:
nothing here counts visits, notes complaints or runs out of anything.

* `Graph.deref?` and `Graph.string?` say which node and which text a node stands for.
* `Graph.own?` is the value of the first entry for a name, and `Graph.operands` are the mappings
  that are merged.
* `Graph.Gives` puts the two together: a mapping has its own value for a name if there is one, and
  otherwise the first one that is found in the mappings merged into it. A mapping in a list stands
  for itself followed by its operands, so a search through mappings that are merged into mappings is
  a search through one list. There is at most one answer (`Graph.Gives.unique`).
* `Graph.TextUnder` is the text of the value that is found, and `Graph.ListsUnder` goes on to the
  items of a list.

Nodes can be compared (`Node.decEq`), so the nodes of a given text can be computed.
-/

set_option autoImplicit false

namespace StateForge
namespace Yaml

/-! ## Comparing nodes -/

namespace Node

mutual

/-- Decides whether two nodes are the same. -/
def decEq : (m n : Node) → Decidable (m = n)
  | scalar line tag tagged text, n =>
    match n with
    | scalar line' tag' tagged' text' =>
      decidable_of_iff (line = line' ∧ tag = tag' ∧ tagged = tagged' ∧ text = text') (by simp)
    | sequence .. | mapping .. | reference .. => isFalse (by simp)
  | sequence line tag items, n =>
    match n with
    | sequence line' tag' items' =>
      have := decEqItems items items'
      decidable_of_iff (line = line' ∧ tag = tag' ∧ items = items') (by simp)
    | scalar .. | mapping .. | reference .. => isFalse (by simp)
  | mapping line tag entries, n =>
    match n with
    | mapping line' tag' entries' =>
      have := decEqEntries entries entries'
      decidable_of_iff (line = line' ∧ tag = tag' ∧ entries = entries') (by simp)
    | scalar .. | sequence .. | reference .. => isFalse (by simp)
  | reference line name serial target, n =>
    match n with
    | reference line' name' serial' target' =>
      decidable_of_iff (line = line' ∧ name = name' ∧ serial = serial' ∧ target = target')
        (by simp)
    | scalar .. | sequence .. | mapping .. => isFalse (by simp)

/-- Decides whether two lists of nodes are the same. -/
def decEqItems : (ms ns : List Node) → Decidable (ms = ns)
  | [], [] => isTrue rfl
  | [], _ :: _ | _ :: _, [] => isFalse (by simp)
  | m :: ms, n :: ns =>
    have := decEq m n
    have := decEqItems ms ns
    decidable_of_iff (m = n ∧ ms = ns) (by simp)

/-- Decides whether two lists of entries are the same. -/
def decEqEntries : (es fs : List (Node × Node)) → Decidable (es = fs)
  | [], [] => isTrue rfl
  | [], _ :: _ | _ :: _, [] => isFalse (by simp)
  | (k, v) :: es, (k', v') :: fs =>
    have := decEq k k'
    have := decEq v v'
    have := decEqEntries es fs
    decidable_of_iff ((k = k' ∧ v = v') ∧ es = fs) (by simp)

end

instance : DecidableEq Node :=
  decEq

end Node

deriving instance DecidableEq for Graph

/-! ## Nodes and what they stand for -/

/-- The text that a node gives where a text is asked for; nothing if it is null or no scalar. -/
def Node.string? : Node → Option Text
  | .scalar _ tag _ text =>
    if tag == schema.binary then Base64.decode? text
    else
      match resolve tag text with
      | .ok (.value _) => some text
      | _ => none
  | _ => none

/-- The entries of a mapping; none for other nodes. -/
def Node.entries : Node → List (Node × Node)
  | .mapping _ _ entries => entries
  | _ => []

/-- Is this node a mapping? -/
def Node.isMapping : Node → Bool
  | .mapping .. => true
  | _ => false

namespace Graph

/-- The node that a node stands for: the target of an alias, and every other node itself. -/
def deref? (g : Graph) : Node → Option Node
  | .reference _ _ _ target => g.target? target
  | n => some n

/-- Does a node stand for a mapping? -/
def isMapping (g : Graph) (n : Node) : Bool :=
  (g.deref? n).any Node.isMapping

/-- The text that a node stands for. -/
def string? (g : Graph) (n : Node) : Option Text :=
  (g.deref? n).bind Node.string?

/-- The items of the list that a node stands for. -/
def items (g : Graph) (n : Node) : List Node :=
  match g.deref? n with
  | some (.sequence _ _ items) => items
  | _ => []

/-- Does this key stand for a name? The key that merges stands for none. -/
def isKeyFor (g : Graph) (name : Text) (key : Node) : Bool :=
  !Decode.isMergeKey key && g.string? key == some name

/-- The value that the first entry for a name has. -/
def own? (g : Graph) (name : Text) (entries : List (Node × Node)) : Option Node :=
  (entries.find? fun entry => g.isKeyFor name entry.1).map Prod.snd

theorem own?_singleton (g : Graph) (name : Text) (entry : Node × Node) :
    g.own? name [entry] = if g.isKeyFor name entry.1 then some entry.2 else none := by
  rw [own?, List.find?_singleton]
  cases g.isKeyFor name entry.1 <;> rfl

theorem own?_cons_eq_or (g : Graph) (name : Text) (entry : Node × Node)
    (rest : List (Node × Node)) :
    g.own? name (entry :: rest) = (g.own? name [entry]).or (g.own? name rest) := by
  rw [own?_singleton, own?, List.find?_cons, own?]
  cases g.isKeyFor name entry.1 <;> rfl

/-- The mappings that are merged into one with these entries: the last merge key counts. -/
def operands (entries : List (Node × Node)) : List Node :=
  match (entries.filter fun entry => Decode.isMergeKey entry.1).getLast? with
  | some (_, .sequence _ _ items) => items
  | some (_, n) => [n]
  | none => []

/-- The value for a name that is found first in a list of mappings. A mapping that has no such entry
itself is searched through the mappings that are merged into it. -/
inductive Gives (g : Graph) (name : Text) : List Node → Option Node → Prop
  | nil : Gives g name [] none
  | own {m n v : Node} {ms : List Node} (hm : g.deref? m = some n)
      (hv : g.own? name n.entries = some v) : Gives g name (m :: ms) (some v)
  | merged {m n : Node} {ms : List Node} {v? : Option Node} (hm : g.deref? m = some n)
      (hnone : g.own? name n.entries = none) (h : Gives g name (operands n.entries ++ ms) v?) :
      Gives g name (m :: ms) v?

namespace Gives

variable {g : Graph} {name : Text} {ms ms' : List Node} {v? w? : Option Node}

theorem append_some {v : Node} (h : Gives g name ms (some v)) :
    Gives g name (ms ++ ms') (some v) := by
  generalize hw : some v = w? at h
  induction h with
  | nil => exact nomatch hw
  | own hm hv => exact .own hm hv
  | merged hm hnone _ ih =>
    rw [List.cons_append]
    refine .merged hm hnone ?_
    rw [← List.append_assoc]
    exact ih hw

theorem append_none (h : Gives g name ms none) (h' : Gives g name ms' w?) :
    Gives g name (ms ++ ms') w? := by
  generalize hw : none = v? at h
  induction h with
  | nil => exact h'
  | own hm hv => exact nomatch hw
  | merged hm hnone _ ih =>
    rw [List.cons_append]
    refine .merged hm hnone ?_
    rw [← List.append_assoc]
    exact ih hw

/-- A search of two lists: the first one counts if it finds something. -/
theorem append (h : Gives g name ms v?) (h' : v? = none → Gives g name ms' w?)
    (hw : v?.isSome = true → w? = none) : Gives g name (ms ++ ms') (v?.or w?) := by
  cases v? with
  | none => exact append_none h (h' rfl)
  | some v =>
    rw [hw rfl]
    exact append_some h

/-- A search of one mapping: its own value counts if there is one. -/
theorem singleton {m n : Node} (hm : g.deref? m = some n) (hv : v? = g.own? name n.entries)
    (h : v? = none → Gives g name (operands n.entries) w?) (hw : v?.isSome = true → w? = none) :
    Gives g name [m] (v?.or w?) := by
  cases v? with
  | none => exact .merged hm hv.symm (by simpa using h rfl)
  | some v =>
    rw [hw rfl]
    exact .own hm hv.symm

/-- **There is at most one answer.** -/
theorem unique (h : Gives g name ms v?) (h' : Gives g name ms w?) : v? = w? := by
  induction h with
  | nil =>
    cases h'
    rfl
  | own hm hv =>
    cases h' with
    | own hm' hv' =>
      cases hm.symm.trans hm'
      exact hv.symm.trans hv'
    | merged hm' hnone' =>
      cases hm.symm.trans hm'
      exact nomatch hv.symm.trans hnone'
  | merged hm hnone _ ih =>
    cases h' with
    | own hm' hv' =>
      cases hm.symm.trans hm'
      exact nomatch hnone.symm.trans hv'
    | merged hm' _ h' =>
      cases hm.symm.trans hm'
      exact ih h'

end Gives

/-- The text that a mapping has for a name: that of the value that is found, and the empty one if
there is no value or none that stands for a text. -/
def TextUnder (g : Graph) (name : Text) (n : Node) (s : Text) : Prop :=
  ∃ v?, g.Gives name [n] v? ∧ s = (v?.bind g.string?).getD []

/-- The values that come of the list that a mapping has for a name, item by item. -/
def ListsUnder {α : Type} (g : Graph) (name : Text) (Item : Node → Option α → Prop) (n : Node)
    (values : List α) : Prop :=
  ∃ v? read, g.Gives name [n] v? ∧ List.Forall₂ Item (v?.elim [] g.items) read ∧
    values = read.reduceOption

end Graph

end Yaml
end StateForge
