import Mathlib.Data.List.Forall2
import StateForge.Yaml.Decode

/-!
# Nodes that are read without complaint

`Decode.Yields x a` says that a step gives `a`, without a fault and without a complaint, as long as
no alias was followed. It is kept by all the steps of reading, so that a document whose nodes have
the right forms is read (`Decode.yields_record`, `Decode.yields_list`).
-/

set_option autoImplicit false

namespace StateForge
namespace Yaml

/-- The node is a string, without a tag in the text. -/
def Node.IsText (n : Node) (s : Text) : Prop :=
  ∃ line, n = .scalar line schema.str false s

namespace Decode

variable {α β : Type}

/-! ## Steps -/

/-- The step gives `a` and does not complain, if no node was visited through an alias. -/
def Yields (x : Decode α) (a : α) : Prop :=
  ∀ t : Tally, t.aliasVisits = 0 →
    ∃ t', x.run t = .ok (a, t') ∧ t'.complaints = t.complaints ∧ t'.aliasVisits = 0

theorem yields_pure (a : α) : Yields (pure a) a :=
  fun t ht => ⟨t, rfl, rfl, ht⟩

theorem Yields.bind {x : Decode α} {f : α → Decode β} {a : α} {b : β} (hx : Yields x a)
    (hf : Yields (f a) b) : Yields (x >>= f) b := by
  intro t ht
  obtain ⟨t', hrun, hcomplaints, ht'⟩ := hx t ht
  obtain ⟨t'', hrun', hcomplaints', ht''⟩ := hf t' ht'
  refine ⟨t'', ?_, hcomplaints'.trans hcomplaints, ht''⟩
  rw [StateT.run_bind, hrun]
  exact hrun'

theorem yields_lift {x : Except Fault α} {a : α} (h : x = .ok a) : Yields (liftM x) a := by
  intro t ht
  rw [h]
  exact ⟨t, rfl, rfl, ht⟩

theorem yields_visit {scope : Scope} (hactive : scope.active = []) : Yields (visit scope) () := by
  intro t ht
  refine ⟨{ t with visits := t.visits + 1, aliasVisits := 0 }, ?_, rfl, rfl⟩
  simp only [visit, StateT.run_bind, StateT.run_get, StateT.run_set, pure_bind, hactive, ht]
  rfl

/-- A node that is no alias stands for itself. -/
theorem yields_follow {scope : Scope} (hactive : scope.active = []) {n : Node}
    (hn : ∀ line name serial target, n ≠ .reference line name serial target) :
    Yields (follow scope n) (scope, n) := by
  refine .bind (yields_visit hactive) ?_
  split
  · exact absurd rfl (hn _ _ _ _)
  · exact yields_pure _

theorem yields_text? {scope : Scope} (hactive : scope.active = []) {n : Node} {s : Text}
    (hn : n.IsText s) : Yields (text? scope n) (some s) := by
  obtain ⟨line, rfl⟩ := hn
  refine .bind (yields_follow hactive (by simp)) ?_
  simp only
  rw [if_neg (by decide)]
  exact .bind (yields_lift (a := .value schema.str) rfl) (yields_pure _)

theorem yields_text {scope : Scope} (hactive : scope.active = []) {n : Node} {s : Text}
    (hn : n.IsText s) (old : Text) : Yields (text scope n old) s :=
  .bind (yields_text? hactive hn) (yields_pure _)

/-- A string is read into a field. -/
theorem yields_field {scope : Scope} (hactive : scope.active = []) {n : Node} {s : Text}
    (hn : n.IsText s) (old : Text) (f : Text → α) :
    Yields (do return f (← text scope n old)) (f s) :=
  .bind (yields_text hactive hn old) (yields_pure _)

/-! ## Lists -/

theorem yields_mapM {f : α → Decode β} {as : List α} {bs : List β}
    (h : List.Forall₂ (fun a b => Yields (f a) b) as bs) : Yields (as.mapM f) bs := by
  induction h with
  | nil => exact yields_pure []
  | cons ha _ ih =>
    rw [List.mapM_cons]
    exact .bind ha (.bind ih (yields_pure _))

/-- **A list is read**, if its items are. -/
theorem yields_list {type : Text} {item : Scope → Node → Decode (Option α)} {scope : Scope}
    (hactive : scope.active = []) (line : Nat) (tag : Text) {items : List Node} {values : List α}
    (h : List.Forall₂ (fun n a => Yields (item scope n) (some a)) items values) :
    Yields (list type item scope (.sequence line tag items)) values := by
  have hitems : Yields (items.mapM (item scope)) (values.map some) :=
    yields_mapM (List.forall₂_map_right_iff.mpr h)
  have hvalues : (values.map some).filterMap id = values := by simp
  have hread : Yields (pure ((values.map some).filterMap id)) values := by
    rw [hvalues]
    exact yields_pure values
  exact .bind (yields_follow hactive (by simp)) (.bind hitems hread)

/-! ## Mappings -/

/-- **The entries give the record.** Each key is the name of a field that was not given before, and
its value is read into that field. -/
inductive EntriesYield (fields : Fields α) (scope : Scope) :
    List Text → List (Node × Node) → α → α → Prop
  | nil (done : List Text) (a : α) : EntriesYield fields scope done [] a a
  | cons {done : List Text} {name : Text} {key val : Node} {rest : List (Node × Node)} {a b c : α}
      {read : Scope → Node → α → Decode α} (hkey : key.IsText name) (hname : name ∉ done)
      (hfield : fields.lookup name = some read) (hread : Yields (read scope val a) b)
      (hrest : EntriesYield fields scope (name :: done) rest b c) :
      EntriesYield fields scope done ((key, val) :: rest) a c

theorem isMergeKey_of_isText {n : Node} {s : Text} (h : n.IsText s) : isMergeKey n = false := by
  obtain ⟨line, rfl⟩ := h
  rw [isMergeKey, show (schema.str == schema.merge) = false by decide, Bool.and_false]

namespace EntriesYield

variable {fields : Fields α} {scope : Scope} {done : List Text} {pairs : List (Node × Node)}
  {a b : α}

theorem exists_name (h : EntriesYield fields scope done pairs a b) :
    ∀ pair ∈ pairs, ∃ name, pair.1.IsText name ∧ name ∉ done := by
  induction h with
  | nil => exact fun _ hpair => absurd hpair (by simp)
  | cons hkey hname _ _ _ ih =>
    refine List.forall_mem_cons.mpr ⟨⟨_, hkey, hname⟩, fun pair hpair => ?_⟩
    obtain ⟨name', hkey', hname'⟩ := ih pair hpair
    exact ⟨name', hkey', fun hmem => hname' (List.mem_cons_of_mem _ hmem)⟩

/-- There is no key that merges. -/
theorem filter_isMergeKey (h : EntriesYield fields scope done pairs a b) :
    pairs.filter (fun pair => isMergeKey pair.1) = [] := by
  rw [List.filter_eq_nil_iff]
  intro pair hpair
  obtain ⟨name, hkey, -⟩ := h.exists_name pair hpair
  rw [isMergeKey_of_isText hkey]
  exact Bool.false_ne_true

end EntriesYield

theorem yields_forIn {l : List α} {f : α → PUnit → Decode (ForInStep PUnit)}
    (hf : ∀ a ∈ l, Yields (f a ⟨⟩) (.yield ⟨⟩)) : Yields (forIn l ⟨⟩ f) ⟨⟩ := by
  induction l with
  | nil => exact yields_pure _
  | cons a l ih =>
    obtain ⟨ha, hl⟩ := List.forall_mem_cons.mp hf
    rw [List.forIn_cons]
    exact .bind ha (ih hl)

section

variable {fields : Fields α} {scope : Scope} {done : List Text} {pairs : List (Node × Node)}
  {a b : α}

theorem yields_checkKeys (h : EntriesYield fields scope done pairs a b) :
    Yields (checkKeys (pairs.map Prod.fst)) () := by
  induction h with
  | nil => exact yields_pure _
  | @cons done name key val rest a b c read hkey hname hfield hread hrest ih =>
    rw [List.map_cons, checkKeys]
    refine .bind (yields_forIn fun other hother => ?_) ih
    obtain ⟨pair, hpair, rfl⟩ := List.mem_map.mp hother
    obtain ⟨name', ⟨line', hkey'⟩, hname'⟩ := hrest.exists_name pair hpair
    obtain ⟨line, rfl⟩ := hkey
    have hdiffer : (name == name') = false :=
      beq_false_of_ne fun heq => hname' (heq ▸ List.mem_cons_self)
    rw [if_neg (by simp [hkey', Node.text, hdiffer])]
    exact yields_pure _

/-- No key comes twice. -/
theorem yields_distinctKeys (h : EntriesYield fields scope done pairs a b) :
    Yields (distinctKeys pairs) true := by
  intro t ht
  obtain ⟨t', hrun, hcomplaints, ht'⟩ := yields_checkKeys h t ht
  refine ⟨t', ?_, hcomplaints, ht'⟩
  simp only [distinctKeys, StateT.run_bind, StateT.run_get, pure_bind, hrun]
  show Except.ok (t'.complaints.length == t.complaints.length, t') = _
  rw [hcomplaints, beq_self_eq_true]

theorem yields_foldlM_entry (hactive : scope.active = [])
    (h : EntriesYield fields scope done pairs a b) (type : Text) :
    ∃ done', Yields (pairs.foldlM (entry type fields scope) ⟨none, done, a⟩) ⟨none, done', b⟩ := by
  induction h with
  | nil done a => exact ⟨done, yields_pure _⟩
  | @cons done name key val rest a b c read hkey hname hfield hread hrest ih =>
    obtain ⟨done', hrest⟩ := ih
    have hdone : done.contains name = false := by simpa using hname
    have hentry : Yields (entry type fields scope ⟨none, done, a⟩ (key, val))
        ⟨none, name :: done, b⟩ := by
      unfold entry
      rw [isMergeKey_of_isText hkey]
      refine .bind (yields_text? hactive hkey) ?_
      simp only [hfield, hdone]
      exact .bind hread (yields_pure _)
    rw [List.foldlM_cons]
    exact ⟨done', .bind hentry hrest⟩

theorem yields_entries (hactive : scope.active = []) (h : EntriesYield fields scope [] pairs a b)
    (type : Text) : Yields (entries type fields scope none pairs a) (b, none) := by
  obtain ⟨done', hfold⟩ := yields_foldlM_entry hactive h type
  exact .bind hfold (yields_pure _)

/-- **A record is read**, if its entries are. -/
theorem yields_record (hactive : scope.active = []) (line : Nat) (tag : Text)
    (h : EntriesYield fields scope [] pairs a b) (type : Text) :
    Yields (record type fields (mergeFuel scope) scope none (.mapping line tag pairs) a)
      (some b, none) := by
  obtain ⟨fuel, hfuel⟩ := Nat.exists_eq_add_one.mpr
    (show 0 < mergeFuel scope from Nat.mul_pos (Nat.succ_pos _) (Nat.succ_pos _))
  rw [hfuel, record]
  refine .bind (yields_follow hactive (by simp)) (.bind (yields_distinctKeys h) ?_)
  refine .bind (yields_entries hactive h type) ?_
  simp only [h.filter_isMergeKey, List.getLast?_nil]
  exact yields_pure _

end

end Decode

end Yaml

/-! ## Documents -/

open Yaml

/-- A transition is read from its entries, and then the tags are restored. -/
theorem TransitionDocument.yields_ofYaml {scope : Scope} (hactive : scope.active = []) (line : Nat)
    {pairs : List (Node × Node)} {d : TransitionDocument}
    (h : Decode.EntriesYield yamlFields scope [] pairs {} d) :
    Decode.Yields (ofYaml scope (.mapping line schema.map pairs))
      (some (pairs.foldl (fun d e => restoreTag e d) d)) := by
  obtain ⟨g, active⟩ := scope
  obtain rfl : active = [] := hactive
  obtain ⟨t, hrun, hcomplaints, -⟩ :=
    Decode.yields_record rfl line schema.map h "loader.plain" {} rfl
  refine .bind (Decode.yields_follow rfl (by simp)) (.bind (Decode.yields_pure _) ?_)
  rw [if_neg (by decide)]
  refine .bind (Decode.yields_lift hrun) (.bind (a := ()) ?_ ?_)
  · exact fun t' ht' => ⟨_, rfl, by simp [hcomplaints], ht'⟩
  · simp only [hcomplaints]
    exact Decode.yields_pure _

/-- A state is read from its entries. -/
theorem StateDocument.yields_ofYaml {scope : Scope} (hactive : scope.active = []) (line : Nat)
    {pairs : List (Node × Node)} {d : StateDocument}
    (h : Decode.EntriesYield yamlFields scope [] pairs {} d) :
    Decode.Yields (ofYaml scope (.mapping line schema.map pairs)) (some d) :=
  .bind (Decode.yields_record hactive line schema.map h _) (Decode.yields_pure _)

/-- **A document is read from its entries.** -/
theorem Document.ofGraph_of_entries {g : Graph} {line : Nat} {pairs : List (Node × Node)}
    {d : Document} (hroot : g.root = .mapping line schema.map pairs)
    (h : Decode.EntriesYield yamlFields { graph := g } [] pairs {} d) : ofGraph g = .ok d := by
  have hread : Decode.Yields (do
      Decode.visit { graph := g }
      Decode.record "loader.Document" yamlFields (Decode.mergeFuel { graph := g }) { graph := g }
        none g.root {}) (some d, none) := by
    rw [hroot]
    exact .bind (Decode.yields_visit rfl) (Decode.yields_record rfl line schema.map h _)
  obtain ⟨t, hrun, hcomplaints, -⟩ := hread {} rfl
  rw [ofGraph]
  simp only [hrun, hcomplaints]
  rfl

end StateForge
