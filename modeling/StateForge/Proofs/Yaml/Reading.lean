import StateForge.Proofs.Acceptance
import StateForge.Proofs.Yaml.Lookup

/-!
# What is read from the nodes of a YAML text

Reading goes step by step: each step may fail, and may note a complaint and go on. A text is
accepted if no step failed and there is no complaint in the end, and this file says what the steps
have given then.

* `Decode.Ensures` is what a step is good for: it takes no complaint back, and its result is right
  if there is no complaint in the end.
* `Decode.Fills` says how one part of a record gets its value in a search that may have to do
  nothing because the part is given already. `Fills.seq` puts two searches together, and that is all
  there is to merging: entries before operands, and one operand before the next.
* `Decode.ensures_entry` and `Decode.ensures_operand` are the two steps, one entry and one mapping
  that is merged. `Decode.ensures_record` puts them together: a part of a record has the value that
  `Graph.Gives` finds. `Decode.ensures_list` says that lists are read item by item.
-/

set_option autoImplicit false

namespace StateForge
namespace Yaml

namespace Decode

variable {α β : Type}

/-! ## Steps

Nothing that is read counts if there is a complaint, so what a step gives has to be known for quiet
runs only. A complaint is not taken back, so a run that is quiet in the end was quiet all along. -/

/-- The step takes no complaint back, and what it gives has `Q` if there is no complaint in the
end. -/
def Ensures (x : Decode α) (Q : α → Prop) : Prop :=
  ∀ t a t', x.run t = .ok (a, t') → t.complaints <:+ t'.complaints ∧ (t'.complaints = [] → Q a)

theorem Ensures.mono {x : Decode α} {Q R : α → Prop} (hx : Ensures x Q) (h : ∀ a, Q a → R a) :
    Ensures x R :=
  fun t a t' hrun => ⟨(hx t a t' hrun).1, fun hquiet => h a ((hx t a t' hrun).2 hquiet)⟩

theorem Ensures.and {x : Decode α} {Q R : α → Prop} (hx : Ensures x Q) (hx' : Ensures x R) :
    Ensures x fun a => Q a ∧ R a :=
  fun t a t' hrun => ⟨(hx t a t' hrun).1, fun hquiet =>
    ⟨(hx t a t' hrun).2 hquiet, (hx' t a t' hrun).2 hquiet⟩⟩

theorem ensures_pure {Q : α → Prop} {a : α} (h : Q a) : Ensures (pure a) Q := by
  intro t b t' hrun
  cases hrun
  exact ⟨List.suffix_refl _, fun _ => h⟩

/-- Of two steps, the second one may rely on what the first one gives. -/
theorem Ensures.bind {x : Decode α} {f : α → Decode β} {Q : α → Prop} {R : β → Prop}
    (hx : Ensures x Q) (hf : ∀ a, Ensures (f a) fun b => Q a → R b) : Ensures (x >>= f) R := by
  intro t b t'' hrun
  rw [StateT.run_bind] at hrun
  obtain ⟨⟨a, t'⟩, hfirst, hsecond⟩ := exists_of_bind_eq_ok hrun
  obtain ⟨hgrown, hQ⟩ := hx t a t' hfirst
  obtain ⟨hgrown', hR⟩ := hf a t' b t'' hsecond
  refine ⟨hgrown.trans hgrown', fun hquiet => hR hquiet (hQ ?_)⟩
  rw [hquiet] at hgrown'
  exact List.suffix_nil.mp hgrown'

theorem ensures_throw (Q : α → Prop) (e : Fault) : Ensures (throw e) Q :=
  fun _ _ _ hrun => nomatch hrun

theorem ensures_lift (x : Except Fault α) : Ensures (liftM x) fun a => x = .ok a := by
  intro t a t' hrun
  cases x with
  | error e => exact nomatch hrun
  | ok b =>
    cases hrun
    exact ⟨List.suffix_refl _, fun _ => rfl⟩

/-- After a complaint, nothing has to be known. -/
theorem ensures_complain (c : Complaint) (Q : Unit → Prop) : Ensures (complain c) Q := by
  intro t a t' hrun
  cases hrun
  exact ⟨List.suffix_cons _ _, fun hquiet => nomatch hquiet⟩

/-- Complaints that were noted elsewhere are noted here as well. -/
theorem ensures_modify (complaints : List Complaint) :
    Ensures (modify fun t => { t with complaints := complaints ++ t.complaints })
      fun _ => complaints = [] := by
  intro t a t' hrun
  cases hrun
  exact ⟨List.suffix_append _ _, fun hquiet => (List.append_eq_nil_iff.mp hquiet).1⟩

theorem ensures_visit (scope : Scope) : Ensures (visit scope) fun _ => True := by
  intro t a t' hrun
  simp only [visit, StateT.run_bind, StateT.run_get, StateT.run_set, pure_bind] at hrun
  generalize (if (scope.active == []) = true then _ else _) = aliasVisits at hrun
  split at hrun
  · exact nomatch hrun
  · cases hrun
    exact ⟨List.suffix_refl _, fun _ => trivial⟩

/-- Visiting a node leads to the node that it stands for. -/
theorem ensures_follow (scope : Scope) (n : Node) :
    Ensures (follow scope n) fun there =>
      there.1.graph = scope.graph ∧ scope.graph.deref? n = some there.2 := by
  refine .bind (ensures_visit scope) fun _ => ?_
  split
  · split
    · exact ensures_throw _ _
    · split
      · exact .bind (ensures_visit _) fun _ => ensures_pure fun _ _ => ⟨rfl, ‹_›⟩
      · exact ensures_throw _ _
  · rename_i hn
    refine ensures_pure fun _ => ⟨rfl, ?_⟩
    cases n with
    | reference line name serial target => exact absurd rfl (hn line name serial target)
    | _ => rfl

theorem ensures_forIn {l : List α} {f : α → PUnit → Decode (ForInStep PUnit)}
    (hf : ∀ a, Ensures (f a ⟨⟩) fun _ => True) : Ensures (forIn l ⟨⟩ f) fun _ => True := by
  induction l with
  | nil => exact ensures_pure trivial
  | cons a l ih =>
    rw [List.forIn_cons]
    refine .bind (hf a) fun step => ?_
    cases step with
    | done => exact ensures_pure fun _ => trivial
    | yield => exact ih.mono fun _ _ _ => trivial

theorem ensures_checkKeys (keys : List Node) : Ensures (checkKeys keys) fun _ => True := by
  induction keys with
  | nil => exact ensures_pure trivial
  | cons key rest ih =>
    refine .bind (ensures_forIn fun other => ?_) fun _ => ih.mono fun _ _ _ => trivial
    split
    · exact .bind (ensures_complain _ fun _ => True) fun _ => ensures_pure fun _ => trivial
    · exact ensures_pure trivial

/-- A quiet check finds no two equal keys. -/
theorem ensures_distinctKeys (pairs : List (Node × Node)) :
    Ensures (distinctKeys pairs) fun distinct => distinct = true := by
  intro t distinct t' hrun
  simp only [distinctKeys, StateT.run_bind, StateT.run_get, pure_bind] at hrun
  obtain ⟨⟨_, t''⟩, hcheck, hend⟩ := exists_of_bind_eq_ok hrun
  cases hend
  have hgrown := (ensures_checkKeys _ _ _ _ hcheck).1
  refine ⟨hgrown, fun hquiet => ?_⟩
  rw [hquiet] at hgrown
  rw [hquiet, List.suffix_nil.mp hgrown, beq_self_eq_true]

theorem ensures_mismatch (type : Text) (n : Node) : Ensures (mismatch type n) fun _ => True := by
  unfold mismatch
  split
  · refine .bind (ensures_lift _) fun resolved => ?_
    split
    · exact ensures_pure fun _ => trivial
    · split
      · exact .bind (ensures_throw (fun _ => True) _) fun _ => ensures_complain _ _
      · exact ensures_complain _ _
  · exact ensures_complain _ _
  · refine .bind (ensures_distinctKeys _) fun distinct => ?_
    split
    · exact ensures_complain _ _
    · exact ensures_pure fun _ => trivial
  · exact ensures_pure trivial

/-- A text is read as the text that the node stands for. -/
theorem ensures_text? (scope : Scope) (n : Node) :
    Ensures (text? scope n) fun s? => s? = scope.graph.string? n := by
  refine .bind (ensures_follow scope n) fun ⟨_, n'⟩ => ?_
  simp only
  split
  · split
    · rename_i hbinary
      split
      · rename_i hbytes
        refine ensures_pure fun h => ?_
        rw [Graph.string?, h.2, Option.bind_some, Node.string?, if_pos hbinary, hbytes]
      · exact ensures_throw _ _
    · rename_i hbinary
      refine .bind (ensures_lift _) fun resolved => ?_
      split
      all_goals
        refine ensures_pure fun hresolved h => ?_
        rw [Graph.string?, h.2, Option.bind_some, Node.string?, if_neg hbinary, hresolved]
  · rename_i hn
    refine .bind (ensures_mismatch _ _) fun _ => ensures_pure fun _ h => ?_
    rw [Graph.string?, h.2, Option.bind_some]
    cases n' with
    | scalar line tag tagged text => exact absurd rfl (hn line tag tagged text)
    | _ => rfl

/-- A field that holds a text. -/
theorem ensures_text (scope : Scope) (n : Node) (old : Text) :
    Ensures (text scope n old) fun new => new = (scope.graph.string? n).getD old := by
  refine .bind (ensures_text? scope n) fun s? => ensures_pure ?_
  rintro rfl
  rfl

/-! ## Lists -/

theorem ensures_mapM {f : α → Decode β} {Q : α → β → Prop} (hf : ∀ a, Ensures (f a) (Q a))
    (l : List α) : Ensures (l.mapM f) (List.Forall₂ Q l) := by
  induction l with
  | nil => exact ensures_pure .nil
  | cons a l ih =>
    rw [List.mapM_cons]
    exact .bind (hf a) fun _ => .bind ih fun _ => ensures_pure fun hrest ha => .cons ha hrest

/-- What the steps of a fold do, one after the other. -/
theorem ensures_foldlM {step : β → α → Decode β} {Q : List α → β → β → Prop}
    (hnil : ∀ b, Q [] b b)
    (hcons : ∀ a l b b' b'', Q [a] b b' → Q l b' b'' → Q (a :: l) b b'')
    (hstep : ∀ b a, Ensures (step b a) (Q [a] b)) (l : List α) (b : β) :
    Ensures (l.foldlM step b) (Q l b) := by
  induction l generalizing b with
  | nil => exact ensures_pure (hnil b)
  | cons a l ih =>
    rw [List.foldlM_cons]
    exact .bind (hstep b a) fun b' => (ih b').mono fun b'' hrest hfirst =>
      hcons a l b b' b'' hfirst hrest

/-- A list is read item by item, in order. -/
theorem ensures_list {type : Text} {item : Scope → Node → Decode (Option α)}
    {Q : Graph → Node → Option α → Prop}
    (hitem : ∀ scope n, Ensures (item scope n) (Q scope.graph n)) (scope : Scope) (n : Node) :
    Ensures (list type item scope n) fun values =>
      ∃ read, List.Forall₂ (Q scope.graph) (scope.graph.items n) read ∧
        values = read.reduceOption := by
  refine .bind (ensures_follow scope n) fun ⟨scope', n'⟩ => ?_
  simp only
  split
  · refine .bind (ensures_mapM (hitem scope') _) fun read => ensures_pure ?_
    rintro hread ⟨hgraph, hn⟩
    refine ⟨read, ?_, rfl⟩
    rw [Graph.items, hn, ← hgraph]
    exact hread
  · rename_i hother
    refine .bind (ensures_mismatch _ _) fun _ => ensures_pure fun _ h => ⟨[], ?_, rfl⟩
    rw [Graph.items, h.2]
    cases n' with
    | sequence line tag items => exact absurd rfl (hother line tag items)
    | _ => exact .nil

/-! ## Keys -/

/-- The key that merges stands for no other name. -/
theorem eq_of_isMergeKey {n : Node} {name : Text} (h : isMergeKey n = true)
    (hname : n.string? = some name) : name = Text.ofString "<<" := by
  cases n with
  | scalar line tag tagged text =>
    rw [isMergeKey, Bool.and_eq_true, beq_iff_eq, beq_iff_eq] at h
    obtain ⟨rfl, rfl⟩ := h
    exact (Option.some.inj hname).symm
  | _ => exact nomatch h

theorem ensures_keyText? (scope : Scope) (key : Node) {name : Text}
    (hname : name ≠ Text.ofString "<<") :
    Ensures (keyText? scope key) fun s? =>
      s? = some name ↔ scope.graph.isKeyFor name key = true := by
  refine .bind (ensures_follow scope key) fun ⟨_, n⟩ => ?_
  -- whether the key or its target is asked for merging makes no difference for this name
  have hkey : scope.graph.deref? key = some n →
      (scope.graph.isKeyFor name key = true ↔ isMergeKey n = false ∧ n.string? = some name) := by
    intro hn
    rw [Graph.isKeyFor, Graph.string?, hn, Option.bind_some, Bool.and_eq_true, beq_iff_eq,
      Bool.not_eq_true']
    refine and_congr_left fun hs => iff_of_true ?_ ?_
    · cases hmerge : isMergeKey key with
      | false => rfl
      | true =>
        cases key with
        | scalar line tag tagged text =>
          cases hn
          exact absurd (eq_of_isMergeKey hmerge hs) hname
        | _ => exact nomatch hmerge
    · cases hmerge : isMergeKey n with
      | false => rfl
      | true => exact absurd (eq_of_isMergeKey hmerge hs) hname
  simp only
  split
  · split
    · rename_i hmerge
      refine ensures_pure fun h => ?_
      rw [hkey h.2, hmerge]
      simp
    · rename_i hmerge
      refine (ensures_text? _ _).mono fun s? hs h => ?_
      rw [hkey h.2, hs]
      simp [Graph.string?, Graph.deref?, hmerge]
  · rename_i hn
    refine ensures_pure fun h => ?_
    rw [hkey h.2]
    cases n with
    | scalar line tag tagged text => exact absurd rfl (hn line tag tagged text)
    | _ => simp [Node.string?]

/-- The keys of a mapping are the names that it has entries for. -/
theorem ensures_keyTexts (scope : Scope) (pairs : List (Node × Node)) {name : Text}
    (hname : name ≠ Text.ofString "<<") :
    Ensures (keyTexts scope pairs) fun names =>
      name ∈ names ↔ (scope.graph.own? name pairs).isSome = true := by
  refine .bind (ensures_mapM (fun key => ensures_keyText? scope key hname) _) fun read =>
    ensures_pure fun hread => ?_
  rw [Graph.own?, Option.isSome_map, List.find?_isSome, List.mem_filterMap]
  induction pairs generalizing read with
  | nil =>
    cases hread
    simp
  | cons pair rest ih =>
    cases hread with
    | cons hfirst hrest =>
      have ih := ih _ hrest
      simp only [List.exists_mem_cons_iff, id] at ih ⊢
      rw [hfirst, ih]

/-! ## Mappings

The fields of a record are looked at one at a time. -/

/-- Only the entry for `name` sets the part `get` of a record, and it does so by `R`. -/
structure Sets (fields : Fields α) (name : Text) (get : α → β)
    (R : Graph → Node → β → β → Prop) : Prop where
  own : ∃ read, fields.lookup name = some read ∧ ∀ scope n old,
    Ensures (read scope n old) fun new => R scope.graph n (get old) (get new)
  others : ∀ field ∈ fields, field.1 ≠ name → ∀ scope n old,
    Ensures (field.2 scope n old) fun new => get new = get old

/-- What a value does to a part of a record: nothing if there is none. -/
def Applied (R : Node → β → β → Prop) : Option Node → β → β → Prop
  | none, a, b => b = a
  | some v, a, b => R v a b

/-- **A part of a record is filled in.** Unless it `was` given already, a value that is `Found` is
applied to it, and after that it `is` given if there was one. -/
def Fills (R : Node → β → β → Prop) (was : Prop) (Found : Option Node → Prop) (a b : β)
    (is : Prop) : Prop :=
  ∃ v?, (was → v? = none) ∧ (¬ was → Found v?) ∧ Applied R v? a b ∧
    (is ↔ was ∨ v?.isSome = true)

namespace Fills

variable {R : Node → β → β → Prop} {was is is' : Prop} {Found Found' Found'' : Option Node → Prop}
  {a b c : β}

theorem of_none (h : Found none) : Fills R was Found a a was :=
  ⟨none, fun _ => rfl, fun _ => h, rfl, by simp⟩

theorem of_some {v : Node} (hwas : ¬ was) (h : Found (some v)) (hR : R v a b) :
    Fills R was Found a b True :=
  ⟨some v, fun h => absurd h hwas, fun _ => h, hR, by simp⟩

theorem is_iff {v? : Option Node} (h : Fills R was (· = v?) a b is) (hwas : ¬ was) :
    is ↔ v?.isSome = true := by
  obtain ⟨w?, -, hfound, -, his⟩ := h
  rw [his, hfound hwas, or_iff_right hwas]

/-- Two searches, one after the other: what the first one finds keeps the second one out. -/
theorem seq (hfirst : Fills R was Found a b is) (hsecond : Fills R is Found' b c is')
    (hFound : ∀ v? w?, Found v? → (v? = none → Found' w?) → (v?.isSome = true → w? = none) →
      Found'' (v?.or w?)) : Fills R was Found'' a c is' := by
  obtain ⟨v?, hnone, hfound, happ, his⟩ := hfirst
  obtain ⟨w?, hnone', hfound', happ', his'⟩ := hsecond
  refine ⟨v?.or w?, fun hwas => ?_, fun hwas => ?_, ?_, ?_⟩
  · rw [hnone hwas, hnone' (his.mpr (.inl hwas)), Option.or_none]
  · refine hFound v? w? (hfound hwas) (fun hv => hfound' ?_) fun hv => hnone' (his.mpr (.inr hv))
    rw [his, hv]
    simpa using hwas
  · cases v? with
    | none =>
      cases happ
      exact happ'
    | some v =>
      rw [hnone' (his.mpr (.inr rfl)), Applied] at happ'
      cases happ'
      exact happ
  · rw [his', his, Option.isSome_or, Bool.or_eq_true, or_assoc]

end Fills

/-- If the keys that are given are kept track of, then this one is given afterwards if it `is`. -/
inductive Tracks (name : Text) (is : Prop) : Option (List Text) → Option (List Text) → Prop
  | untracked : Tracks name is none none
  | tracked {given given' : List Text} (h : name ∈ given' ↔ is) :
      Tracks name is (some given) (some given')

theorem Tracks.refl (name : Text) (given? : Option (List Text)) :
    Tracks name (name ∈ given?.getD []) given? given? := by
  cases given? with
  | none => exact .untracked
  | some given => exact .tracked Iff.rfl

namespace Progress

/-- Has this name been dealt with? In a mapping that is merged, the keys that are given decide, and
otherwise the fields that are done. -/
def Has (name : Text) (p : Progress α) : Prop :=
  name ∈ p.given?.getD p.done

variable {name other : Text} {p : Progress α} {value : α}

theorem tracks_has {given? : Option (List Text)} (h : p.given?.isSome = given?.isSome) :
    Tracks name (p.Has name) given? p.given? := by
  obtain ⟨given'?, done, value⟩ := p
  cases given? with
  | none =>
    cases given'? with
    | none => exact .untracked
    | some given' => exact absurd h (by simp)
  | some given =>
    cases given'? with
    | none => exact absurd h (by simp)
    | some given' => exact .tracked Iff.rfl

/-- A name that is dealt with is noted down, in one way or the other. -/
theorem has_cons_self : Has name ⟨p.given?.map (name :: ·), name :: p.done, value⟩ := by
  cases hgiven : p.given? <;> simp [Has]

/-- Other names make no difference. -/
theorem has_cons_of_ne (hne : other ≠ name) :
    Has name ⟨p.given?.map (other :: ·), other :: p.done, value⟩ ↔ p.Has name := by
  cases hgiven : p.given? <;> simp [Has, hgiven, Ne.symm hne]

theorem has_map_of_ne (hne : other ≠ name) :
    Has name ⟨p.given?.map (other :: ·), p.done, value⟩ ↔ p.Has name := by
  cases hgiven : p.given? <;> simp [Has, hgiven, Ne.symm hne]

/-- What is neither given nor done has not been dealt with. -/
theorem not_has (hgiven : ¬ p.given?.any (·.contains name) = true)
    (hdone : ¬ p.done.contains name = true) : ¬ p.Has name := by
  cases h : p.given? with
  | none => simpa [Has, h] using hdone
  | some given => simpa [Has, h] using hgiven

theorem has_of_given (hgiven : p.given?.any (·.contains name) = true) : p.Has name := by
  cases h : p.given? with
  | none => exact absurd hgiven (by simp [h])
  | some given => simpa [Has, h] using hgiven

end Progress

section Mapping

variable {fields : Fields α} {name : Text} {get : α → β} {R : Graph → Node → β → β → Prop}

namespace Sets

variable {other : Text} {read : Scope → Node → α → Decode α}

theorem ne_of_lookup_eq_none (hsets : Sets fields name get R) (h : fields.lookup other = none) :
    other ≠ name := by
  rintro rfl
  obtain ⟨read, hread, -⟩ := hsets.own
  exact nomatch h.symm.trans hread

theorem ensures_of_lookup (hsets : Sets fields name get R) (h : fields.lookup name = some read)
    (scope : Scope) (n : Node) (old : α) :
    Ensures (read scope n old) fun new => R scope.graph n (get old) (get new) := by
  obtain ⟨read', hread', hown⟩ := hsets.own
  cases h.symm.trans hread'
  exact hown scope n old

theorem ensures_of_lookup_ne (hsets : Sets fields name get R) (h : fields.lookup other = some read)
    (hne : other ≠ name) (scope : Scope) (n : Node) (old : α) :
    Ensures (read scope n old) fun new => get new = get old := by
  obtain ⟨before, after, rfl, -⟩ := List.lookup_eq_some_iff.mp h
  exact hsets.others (other, read) (by simp) hne scope n old

end Sets

/-- What entries do to a part of a record: it is filled in from the first one for its name. -/
structure FillsEntries (name : Text) (get : α → β) (R : Node → β → β → Prop) (g : Graph)
    (pairs : List (Node × Node)) (p p' : Progress α) : Prop where
  fills : Fills R (p.Has name) (· = g.own? name pairs) (get p.value) (get p'.value) (p'.Has name)
  tracked : p'.given?.isSome = p.given?.isSome

namespace FillsEntries

variable {g : Graph} {pair : Node × Node} {pairs : List (Node × Node)} {p p' p'' : Progress α}
  {R : Node → β → β → Prop}

theorem nil (p : Progress α) : FillsEntries name get R g [] p p :=
  ⟨.of_none rfl, rfl⟩

theorem cons (hfirst : FillsEntries name get R g [pair] p p')
    (hrest : FillsEntries name get R g pairs p' p'') :
    FillsEntries name get R g (pair :: pairs) p p'' := by
  refine ⟨hfirst.fills.seq hrest.fills ?_, hrest.tracked.trans hfirst.tracked⟩
  rintro v? w? rfl hw hone
  rw [g.own?_cons_eq_or name pair pairs]
  cases hv : g.own? name [pair] with
  | none => rw [hw hv]
  | some v => rw [hone (by rw [hv]; rfl), Option.or_none, Option.some_or]

/-- An entry that is not for this name, or comes too late for it. -/
theorem skipped (hkept : get p'.value = get p.value) (hhas : p'.Has name ↔ p.Has name)
    (hother : ¬ p.Has name → g.isKeyFor name pair.1 = false)
    (htracked : p'.given?.isSome = p.given?.isSome) :
    FillsEntries name get R g [pair] p p' := by
  refine ⟨?_, htracked⟩
  rw [hkept, propext hhas]
  refine ⟨none, fun _ => rfl, fun hnot => ?_, rfl, by simp⟩
  rw [g.own?_singleton, hother hnot]
  rfl

/-- The entry for this name. -/
theorem read (hnew : R pair.2 (get p.value) (get p'.value)) (hbefore : ¬ p.Has name)
    (hhas : p'.Has name) (hkey : g.isKeyFor name pair.1 = true)
    (htracked : p'.given?.isSome = p.given?.isSome) :
    FillsEntries name get R g [pair] p p' := by
  refine ⟨?_, htracked⟩
  rw [eq_true hhas]
  refine .of_some hbefore ?_ hnew
  rw [g.own?_singleton, hkey]
  rfl

end FillsEntries

/-- **One entry of a mapping**, read into a record. -/
theorem ensures_entry (hsets : Sets fields name get R) (type : Text) (scope : Scope)
    (p : Progress α) (pair : Node × Node) :
    Ensures (entry type fields scope p pair)
      (FillsEntries name get (R scope.graph) scope.graph [pair] p) := by
  unfold entry
  split
  · rename_i hmerge
    exact ensures_pure (.skipped rfl Iff.rfl (fun _ => by simp [Graph.isKeyFor, hmerge]) rfl)
  · rename_i hmerge
    refine .bind (ensures_text? scope pair.1) fun s? => ?_
    split
    · refine ensures_pure fun hs => .skipped rfl Iff.rfl (fun _ => ?_) rfl
      simp [Graph.isKeyFor, ← hs]
    · rename_i other
      have hother : other ≠ name → some other = scope.graph.string? pair.1 →
          scope.graph.isKeyFor name pair.1 = false :=
        fun hne hs => by simp [Graph.isKeyFor, ← hs, hne]
      split
      · rename_i hgiven
        refine ensures_pure fun hs => .skipped rfl Iff.rfl (fun hnot => hother ?_ hs) rfl
        rintro rfl
        exact hnot (Progress.has_of_given hgiven)
      · rename_i hgiven
        simp only
        split
        · rename_i hlookup
          have hne := hsets.ne_of_lookup_eq_none hlookup
          exact ensures_pure fun hs =>
            .skipped rfl (Progress.has_map_of_ne hne) (fun _ => hother hne hs) (by simp)
        · rename_i read hlookup
          split
          · -- a field that is set twice is complained of, so this run does not count
            exact .bind (ensures_complain _ fun _ => False) fun _ => ensures_pure False.elim
          · rename_i hdone
            by_cases hname : other = name
            · subst hname
              refine .bind (hsets.ensures_of_lookup hlookup scope pair.2 p.value) fun new =>
                ensures_pure fun hnew hs => ?_
              exact .read hnew (Progress.not_has hgiven hdone) Progress.has_cons_self
                (by simp [Graph.isKeyFor, hmerge, ← hs]) (by simp)
            · refine .bind (hsets.ensures_of_lookup_ne hlookup hname scope pair.2 p.value)
                fun new => ensures_pure fun hnew hs => ?_
              exact .skipped hnew (Progress.has_cons_of_ne hname) (fun _ => hother hname hs)
                (by simp)

/-- The entries of a mapping, read into a record: the first one for a name counts, if it is not
given already. -/
theorem ensures_entries (hsets : Sets fields name get R) (type : Text) (scope : Scope)
    (given? : Option (List Text)) (pairs : List (Node × Node)) (old : α) :
    Ensures (entries type fields scope given? pairs old) fun result =>
      ∃ is, Fills (R scope.graph) (name ∈ given?.getD []) (· = scope.graph.own? name pairs)
          (get old) (get result.1) is ∧
        Tracks name is given? result.2 := by
  refine .bind (ensures_foldlM FillsEntries.nil (fun _ _ _ _ _ => FillsEntries.cons)
    (ensures_entry hsets type scope) pairs ⟨given?, [], old⟩) fun p => ensures_pure fun h => ?_
  exact ⟨_, h.fills, Progress.tracks_has h.tracked⟩

theorem ensures_mergeOperands (scope : Scope) (pairs : List (Node × Node)) {key operand : Node}
    (h : (pairs.filter fun pair => isMergeKey pair.1).getLast? = some (key, operand)) :
    Ensures (mergeOperands scope operand) fun ms => ms = Graph.operands pairs := by
  unfold mergeOperands
  rw [Graph.operands, h]
  split
  · split
    · exact ensures_pure rfl
    · exact ensures_throw _ _
  · rename_i hn
    split
    · refine ensures_pure ?_
      cases operand with
      | sequence line tag items => exact absurd rfl (hn line tag items)
      | _ => rfl
    · exact ensures_throw _ _

/-- What is read as a record: every part of it is filled in from the mapping, and there is a record
exactly if there is a mapping. -/
def ReadsRecord (name : Text) (get : α → β) (R : Graph → Node → β → β → Prop) (g : Graph)
    (given? : Option (List Text)) (n : Node) (old : α)
    (result : Option α × Option (List Text)) : Prop :=
  (∃ is, Fills (R g) (name ∈ given?.getD []) (g.Gives name [n]) (get old)
    (get (result.1.getD old)) is ∧ Tracks name is given? result.2) ∧
  result.1.isSome = g.isMapping n

namespace ReadsRecord

variable {g : Graph} {given? mid? : Option (List Text)} {n : Node} {old mid new : α}
  {line : Nat} {tag : Text} {pairs : List (Node × Node)} {is is' : Prop}

/-- A node that is no mapping changes nothing. -/
theorem of_other {n' : Node} (hn : g.deref? n = some n') (hother : n'.isMapping = false) :
    ReadsRecord name get R g given? n old (none, given?) := by
  refine ⟨⟨_, .of_none ?_, .refl name given?⟩, ?_⟩
  · have hentries : n'.entries = [] := by
      cases n' with
      | mapping => exact nomatch hother
      | _ => rfl
    refine .merged hn ?_ ?_
    · rw [hentries]
      rfl
    · rw [hentries]
      exact .nil
  · rw [Graph.isMapping, hn, Option.any_some, hother]
    rfl

/-- The entries of a mapping come first, and then the mappings that are merged into it. -/
theorem of_mapping (hn : g.deref? n = some (.mapping line tag pairs))
    (hentries : Fills (R g) (name ∈ given?.getD []) (· = g.own? name pairs) (get old) (get mid) is)
    (hmerged : Fills (R g) is (g.Gives name (Graph.operands pairs)) (get mid) (get new) is')
    (htracks : Tracks name is' given? mid?) :
    ReadsRecord name get R g given? n old (some new, mid?) := by
  refine ⟨⟨is', hentries.seq hmerged fun v? w? hv hw hone => ?_, htracks⟩, ?_⟩
  · exact Graph.Gives.singleton hn hv hw hone
  · rw [Graph.isMapping, hn]
    rfl

end ReadsRecord

/-- **One mapping that is merged**: it fills in what is not given before it. -/
theorem ensures_operand {g : Graph}
    {read : Option (List Text) → Node → α → Decode (Option α × Option (List Text))}
    (hread : ∀ given? m old, Ensures (read given? m old) (ReadsRecord name get R g given? m old))
    (acc : α × List Text) (m : Node) :
    Ensures (do
        let (merged?, given'?) ← read (some acc.2) m acc.1
        return (merged?.getD acc.1, given'?.getD acc.2)) fun acc' =>
      Fills (R g) (name ∈ acc.2) (g.Gives name [m]) (get acc.1) (get acc'.1) (name ∈ acc'.2) := by
  refine .bind (hread (some acc.2) m acc.1) ?_
  rintro ⟨merged?, given'?⟩
  refine ensures_pure ?_
  rintro ⟨⟨is, hfills, htracks⟩, -⟩
  cases htracks with
  | tracked h =>
    rw [← propext h] at hfills
    exact hfills

/-- The mappings that are merged one after the other are searched one after the other. -/
theorem ensures_operands {g : Graph} {step : α × List Text → Node → Decode (α × List Text)}
    (hstep : ∀ acc m, Ensures (step acc m) fun acc' =>
      Fills (R g) (name ∈ acc.2) (g.Gives name [m]) (get acc.1) (get acc'.1) (name ∈ acc'.2))
    (ms : List Node) (acc : α × List Text) :
    Ensures (ms.foldlM step acc) fun acc' =>
      Fills (R g) (name ∈ acc.2) (g.Gives name ms) (get acc.1) (get acc'.1) (name ∈ acc'.2) :=
  ensures_foldlM (Q := fun ms acc acc' =>
      Fills (R g) (name ∈ acc.2) (g.Gives name ms) (get acc.1) (get acc'.1) (name ∈ acc'.2))
    (fun _ => .of_none .nil)
    (fun _ _ _ _ _ hfirst hrest =>
      hfirst.seq hrest fun _ _ hv hw hone => Graph.Gives.append hv hw hone)
    hstep ms acc

/-- A key is taken if it is given after the entries of the mapping. -/
theorem ensures_takenKeys (scope : Scope) (hname : name ≠ Text.ofString "<<")
    (pairs : List (Node × Node)) (given? given'? : Option (List Text)) :
    Ensures (takenKeys scope pairs given'?) fun given =>
      ∀ {R : Node → β → β → Prop} {a b : β} {is : Prop}, Fills R (name ∈ given?.getD [])
        (· = scope.graph.own? name pairs) a b is → Tracks name is given? given'? →
        (name ∈ given ↔ is) := by
  cases given'? with
  | some given =>
    refine ensures_pure fun _ htracks => ?_
    cases htracks with
    | tracked h => exact h
  | none =>
    refine (ensures_keyTexts scope pairs hname).mono fun given hgiven _ _ _ _ hentries htracks => ?_
    cases htracks
    exact hgiven.trans (hentries.is_iff List.not_mem_nil).symm

/-- **A record is read from its mapping**, and from those that are merged into it. -/
theorem ensures_record (hsets : Sets fields name get R) (hname : name ≠ Text.ofString "<<")
    (type : Text) (fuel : Nat) (scope : Scope) (given? : Option (List Text)) (n : Node) (old : α) :
    Ensures (record type fields fuel scope given? n old)
      (ReadsRecord name get R scope.graph given? n old) := by
  induction fuel generalizing scope given? n old with
  | zero => exact ensures_throw _ _
  | succ fuel ih =>
    rw [record]
    refine .bind (ensures_follow scope n) ?_
    rintro ⟨scope', n'⟩
    simp only
    split
    · rename_i line tag pairs
      refine .bind (ensures_distinctKeys _) fun distinct => ?_
      split
      · refine .bind (ensures_entries hsets type scope' given? _ old) ?_
        rintro ⟨mid, mid?⟩
        simp only
        split
        · rename_i hlast
          refine ensures_pure ?_
          rintro ⟨is, hentries, htracks⟩ - ⟨hgraph, hn⟩
          rw [hgraph] at hentries
          have hnone : Graph.operands pairs = [] := by rw [Graph.operands, hlast]
          exact .of_mapping hn hentries (.of_none (by rw [hnone]; exact .nil)) htracks
        · rename_i hlast
          refine .bind (ensures_takenKeys (β := β) scope' hname pairs given? mid?) fun given => ?_
          refine .bind (ensures_mergeOperands scope' pairs hlast) fun ms => ?_
          refine .bind (ensures_operands (ensures_operand (ih scope')) ms (mid, given))
            fun result => ensures_pure ?_
          rintro hmerged rfl hgiven ⟨is, hentries, htracks⟩ - ⟨hgraph, hn⟩
          rw [propext (hgiven hentries htracks)] at hmerged
          rw [hgraph] at hentries hmerged
          refine .of_mapping hn hentries hmerged ?_
          cases htracks with
          | untracked => exact .untracked
          | tracked => exact .tracked Iff.rfl
      · exact ensures_pure fun hdistinct => absurd hdistinct ‹_›
    · rename_i hother
      refine .bind (ensures_mismatch _ _) fun _ => ensures_pure ?_
      rintro - ⟨hgraph, hn⟩
      refine .of_other hn ?_
      cases n' with
      | mapping line tag pairs => exact absurd rfl (hother line tag pairs)
      | _ => rfl

/-- A record that is merged into no other one is read in full. -/
theorem ReadsRecord.applied {name : Text} {get : α → β} {R : Graph → Node → β → β → Prop}
    {g : Graph} {n : Node} {old : α} {result : Option α × Option (List Text)}
    (h : ReadsRecord name get R g none n old result) :
    ∃ v?, g.Gives name [n] v? ∧ Applied (R g) v? (get old) (get (result.1.getD old)) := by
  obtain ⟨⟨is, ⟨v?, -, hv, happ, -⟩, -⟩, -⟩ := h
  exact ⟨v?, hv List.not_mem_nil, happ⟩

/-- A field that holds a text. -/
def ReadsText (g : Graph) (v : Node) (old new : Text) : Prop :=
  new = (g.string? v).getD old

/-- A field that holds a list of what `Item` describes. -/
def ReadsList (Item : Graph → Node → Option β → Prop) (g : Graph) (v : Node)
    (_ new : List β) : Prop :=
  ∃ read, List.Forall₂ (Item g) (g.items v) read ∧ new = read.reduceOption

theorem textUnder_of_reads {name : Text} {get : α → Text} {g : Graph} {n : Node} {old : α}
    {result : Option α × Option (List Text)}
    (h : ReadsRecord name get ReadsText g none n old result) (hold : get old = []) :
    g.TextUnder name n (get (result.1.getD old)) := by
  obtain ⟨v?, hv, happ⟩ := h.applied
  rw [hold] at happ
  refine ⟨v?, hv, ?_⟩
  cases v? with
  | none => exact happ
  | some v => exact happ

theorem listsUnder_of_reads {name : Text} {get : α → List β} {Item : Graph → Node → Option β → Prop}
    {g : Graph} {n : Node} {old : α} {result : Option α × Option (List Text)}
    (h : ReadsRecord name get (ReadsList Item) g none n old result) (hold : get old = []) :
    g.ListsUnder name (Item g) n (get (result.1.getD old)) := by
  obtain ⟨v?, hv, happ⟩ := h.applied
  cases v? with
  | none => exact ⟨none, [], hv, .nil, happ.trans hold⟩
  | some v =>
    obtain ⟨read, hread, hnew⟩ := happ
    exact ⟨some v, read, hv, hread, hnew⟩

end Mapping

end Decode

end Yaml
end StateForge
