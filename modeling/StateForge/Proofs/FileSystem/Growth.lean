import StateForge.FileSystem.Access

/-!
# File systems that only grow

Nothing that a generation does takes anything away: it makes directories where nothing was and gives
files a content. So a path that leads somewhere goes on leading there. This file says so, and says
what the operations on files and directories change.

* `FileSystem.Extends`: everything that was there is still there, up to the content of files.
  `Extends.resolve_found` is the consequence for paths.
* `FileSystem.SameFile`: two paths lead to one file. They go on doing so (`Extends.sameFile`), so
  files that are different in the end have been different all the time.
* `writeFile_spec`: writing touches one place, and afterwards the path leads to it.
* `FileSystem.GrownTowards`: nothing but new directories on the way along a path.
  `makePath_grown` says that making a path does no more than that, whether it succeeds or not.

A path is walked link by link, and the rest of the way after a link is computed from its target. The
lemmas about walks therefore come in pairs, one for arriving and one for being redirected, and
`resolve_transfer` puts such a pair together.
-/

set_option autoImplicit false

namespace StateForge

/-- An entry without the content of a file. -/
def Entry.shape : Entry → Entry
  | file _ => file []
  | e => e

theorem Entry.eq_file_of_shape {e : Entry} {c : Text} (h : e.shape = (Entry.file c).shape) :
    ∃ c', e = .file c' := by
  cases e with
  | file c' => exact ⟨c', rfl⟩
  | directory => exact absurd h (by simp [shape])
  | link target => exact absurd h (by simp [shape])

theorem Entry.eq_of_shape {e d : Entry} (h : e.shape = d.shape) (hd : ∀ c, d ≠ .file c) :
    e = d := by
  cases d with
  | file c => exact absurd rfl (hd c)
  | directory => cases e <;> simp_all [shape]
  | link target => cases e <;> simp_all [shape]

namespace FileSystem

/-! ## The map -/

theorem lookup_setIn (l k : Location) (e : Entry) (entries : List (Location × Entry)) :
    (setIn l e entries).lookup k = if k = l then some e else entries.lookup k := by
  have hcons : ∀ (j : Location) (d : Entry) (rest : List (Location × Entry)),
      ((j, d) :: rest).lookup k = if k = j then some d else rest.lookup k := by
    intro j d rest
    by_cases h : k = j
    · simp [h]
    · simp [List.lookup_cons, beq_false_of_ne h, h]
  induction entries with
  | nil => rw [setIn, hcons]
  | cons entry rest ih =>
    obtain ⟨j, d⟩ := entry
    rw [setIn, hcons]
    by_cases hj : j = l
    · subst hj
      rw [if_pos rfl, hcons]
      split <;> rfl
    · rw [if_neg hj, hcons, ih]
      by_cases h : k = j
      · rw [if_pos h, if_pos h, if_neg (h ▸ hj)]
      · rw [if_neg h, if_neg h]

variable {fs fs' : FileSystem}

theorem get?_set {l : Location} (hl : l ≠ []) (e : Entry) (k : Location) :
    (fs.set l e).get? k = if k = l then some e else fs.get? k := by
  by_cases hk : k = []
  · rw [get?, get?, if_pos hk, if_pos hk, if_neg (hk ▸ Ne.symm hl)]
  · rw [get?, get?, if_neg hk, if_neg hk]
    exact lookup_setIn l k e fs.entries

theorem ne_nil_of_get? {l : Location} {e : Entry} (h : fs.get? l = some e) (he : e ≠ .directory) :
    l ≠ [] := by
  intro hl
  rw [get?, if_pos hl] at h
  exact he (Option.some.inj h).symm

/-! ## Growing -/

/-- Everything that was there is still there, up to the content of files. -/
structure Extends (fs fs' : FileSystem) : Prop where
  current : fs'.current = fs.current
  kept : ∀ l e, fs.get? l = some e → ∃ e', fs'.get? l = some e' ∧ e'.shape = e.shape

theorem Extends.refl (fs : FileSystem) : fs.Extends fs :=
  ⟨rfl, fun _ e h => ⟨e, h, rfl⟩⟩

theorem Extends.trans {fs'' : FileSystem} (h : fs.Extends fs') (h' : fs'.Extends fs'') :
    fs.Extends fs'' := by
  refine ⟨h'.current.trans h.current, fun l e he => ?_⟩
  obtain ⟨e', he', hshape⟩ := h.kept l e he
  obtain ⟨e'', he'', hshape'⟩ := h'.kept l e' he'
  exact ⟨e'', he'', hshape'.trans hshape⟩

/-- What is neither a file nor missing stays as it is. -/
theorem Extends.get?_eq (h : fs.Extends fs') {l : Location} {e : Entry} (he : fs.get? l = some e)
    (hfile : ∀ c, e ≠ .file c) : fs'.get? l = some e := by
  obtain ⟨e', he', hshape⟩ := h.kept l e he
  rw [he', Entry.eq_of_shape hshape hfile]

theorem Extends.get?_file (h : fs.Extends fs') {l : Location} {c : Text}
    (hc : fs.get? l = some (.file c)) : ∃ c', fs'.get? l = some (.file c') := by
  obtain ⟨e', he', hshape⟩ := h.kept l _ hc
  obtain ⟨c', rfl⟩ := Entry.eq_file_of_shape hshape
  exact ⟨c', he'⟩

/-- Where there is a file now there was a file or nothing. -/
theorem Extends.none_or_file (h : fs.Extends fs') {l : Location} {c : Text}
    (hc : fs'.get? l = some (.file c)) :
    fs.get? l = none ∨ ∃ c', fs.get? l = some (.file c') := by
  cases hget : fs.get? l with
  | none => exact .inl rfl
  | some e =>
    obtain ⟨e', he', hshape⟩ := h.kept l e hget
    cases he'.symm.trans hc
    obtain ⟨c', rfl⟩ := Entry.eq_file_of_shape hshape.symm
    exact .inr ⟨c', rfl⟩

theorem extends_set {l : Location} (hl : l ≠ []) {e : Entry}
    (h : ∀ d, fs.get? l = some d → e.shape = d.shape) : fs.Extends (fs.set l e) := by
  refine ⟨rfl, fun k d hd => ?_⟩
  rw [get?_set hl]
  by_cases hk : k = l
  · subst hk
    exact ⟨e, if_pos rfl, h d hd⟩
  · exact ⟨d, by rw [if_neg hk, hd], rfl⟩

/-! ## Walks

A walk treats a name in one of three ways that do not depend on what is there: it passes over the
names for this directory and the one above, it refuses a name that is too long, and it looks up any
other. `walk_induct` is induction over the names with these cases. -/

/-- A name that is looked up. -/
structure IsProper (name : Text) : Prop where
  ne_here : name ≠ Path.here
  ne_up : name ≠ Path.up
  short : ¬ name.length > maxName

theorem walk_induct {motive : Location → List Text → Prop} (nil : ∀ dir, motive dir [])
    (pass : ∀ dir dir' name rest,
      (∀ (fs : FileSystem) follow more,
        fs.walk follow dir (name :: more) = fs.walk follow dir' more) →
      motive dir' rest → motive dir (name :: rest))
    (refuse : ∀ dir name rest,
      (∀ (fs : FileSystem) follow, fs.walk follow dir (name :: rest) = .refused .nameTooLong) →
      motive dir (name :: rest))
    (enter : ∀ dir name rest, IsProper name → motive (dir ++ [name]) rest →
      motive dir (name :: rest))
    (dir : Location) (names : List Text) : motive dir names := by
  induction names generalizing dir with
  | nil => exact nil dir
  | cons name rest ih =>
    by_cases hhere : name = Path.here
    · exact pass dir dir name rest (fun _ _ _ => by rw [walk, if_pos hhere]) (ih dir)
    · by_cases hup : name = Path.up
      · exact pass dir dir.dropLast name rest
          (fun _ _ _ => by rw [walk, if_neg hhere, if_pos hup]) (ih dir.dropLast)
      · by_cases hlong : name.length > maxName
        · exact refuse dir name rest fun _ _ => by
            rw [walk, if_neg hhere, if_neg hup, if_pos hlong]
        · exact enter dir name rest ⟨hhere, hup, hlong⟩ (ih _)

section

variable {name : Text} (hname : IsProper name) {follow : Bool} {dir : Location} {rest : List Text}
include hname

theorem walk_none (h : fs.get? (dir ++ [name]) = none) :
    fs.walk follow dir (name :: rest)
      = if rest = [] then .arrived (.missing dir name) else .refused .noEntry := by
  rw [walk, if_neg hname.ne_here, if_neg hname.ne_up, if_neg hname.short, h]

theorem walk_directory (h : fs.get? (dir ++ [name]) = some .directory) :
    fs.walk follow dir (name :: rest) = fs.walk follow (dir ++ [name]) rest := by
  rw [walk, if_neg hname.ne_here, if_neg hname.ne_up, if_neg hname.short, h]

theorem walk_file {c : Text} (h : fs.get? (dir ++ [name]) = some (.file c)) :
    fs.walk follow dir (name :: rest)
      = if rest = [] then .arrived (.found (dir ++ [name]) (.file c))
        else .refused .notDirectory := by
  rw [walk, if_neg hname.ne_here, if_neg hname.ne_up, if_neg hname.short, h]

theorem walk_link {target : Text} (h : fs.get? (dir ++ [name]) = some (.link target)) :
    fs.walk follow dir (name :: rest)
      = if rest = [] ∧ !follow then .arrived (.found (dir ++ [name]) (.link target))
        else .redirected (if Path.isAbsolute target then [] else dir) (steps target ++ rest) := by
  rw [walk, if_neg hname.ne_here, if_neg hname.ne_up, if_neg hname.short, h]

end

/-- A walk that was redirected is redirected again, also if its last name is now followed. -/
theorem Extends.walk_redirected (h : fs.Extends fs') {follow : Bool} {dir base : Location}
    {names rest : List Text} (hw : fs.walk follow dir names = .redirected base rest) :
    fs'.walk true dir names = .redirected base rest := by
  induction dir, names using walk_induct with
  | nil dir => exact absurd hw (by simp [walk])
  | pass dir dir' name names hpass ih => exact hpass fs' true _ ▸ ih (hpass fs follow _ ▸ hw)
  | refuse dir name names hrefuse => exact absurd hw (by simp [hrefuse])
  | enter dir name names hname ih =>
    cases he : fs.get? (dir ++ [name]) with
    | none =>
      rw [walk_none hname he] at hw
      split at hw <;> exact absurd hw (by simp)
    | some e =>
      cases e with
      | file c =>
        rw [walk_file hname he] at hw
        split at hw <;> exact absurd hw (by simp)
      | directory =>
        rw [walk_directory hname he] at hw
        rw [walk_directory hname (h.get?_eq he (by simp))]
        exact ih hw
      | link target =>
        rw [walk_link hname he] at hw
        rw [walk_link hname (h.get?_eq he (by simp)), if_neg (by simp)]
        split at hw
        · exact absurd hw (by simp)
        · exact hw

/-- A walk that arrived somewhere arrives there again. -/
theorem Extends.walk_found (h : fs.Extends fs') {dir l : Location} {names : List Text} {e : Entry}
    (hw : fs.walk true dir names = .arrived (.found l e)) :
    ∃ e', fs'.walk true dir names = .arrived (.found l e') ∧ e'.shape = e.shape := by
  induction dir, names using walk_induct with
  | nil dir => exact ⟨e, hw, rfl⟩
  | pass dir dir' name names hpass ih => exact hpass fs' true _ ▸ ih (hpass fs true _ ▸ hw)
  | refuse dir name names hrefuse => exact absurd hw (by simp [hrefuse])
  | enter dir name names hname ih =>
    cases he : fs.get? (dir ++ [name]) with
    | none =>
      rw [walk_none hname he] at hw
      split at hw <;> exact absurd hw (by simp)
    | some d =>
      cases d with
      | file c =>
        obtain ⟨c', hc'⟩ := h.get?_file he
        rw [walk_file hname he] at hw
        rw [walk_file hname hc']
        split at hw
        · cases hw
          exact ⟨.file c', if_pos ‹_›, rfl⟩
        · exact absurd hw (by simp)
      | directory =>
        rw [walk_directory hname he] at hw
        rw [walk_directory hname (h.get?_eq he (by simp))]
        exact ih hw
      | link target =>
        rw [walk_link hname he, if_neg (by simp)] at hw
        exact absurd hw (by simp)

/-- What is known about the place where a walk arrives. -/
def Spot.IsIn (fs : FileSystem) : Spot → Prop
  | .found l e => e = .directory ∨ fs.get? l = some e
  | .missing parent name => fs.get? (parent ++ [name]) = none

theorem isIn_of_walk {follow : Bool} {dir : Location} {names : List Text} {spot : Spot}
    (hw : fs.walk follow dir names = .arrived spot) : Spot.IsIn fs spot := by
  induction dir, names using walk_induct with
  | nil dir =>
    cases hw
    exact .inl rfl
  | pass dir dir' name names hpass ih => exact ih (hpass fs follow _ ▸ hw)
  | refuse dir name names hrefuse => exact absurd hw (by simp [hrefuse])
  | enter dir name names hname ih =>
    cases he : fs.get? (dir ++ [name]) with
    | none =>
      rw [walk_none hname he] at hw
      split at hw
      · cases hw
        exact he
      · exact absurd hw (by simp)
    | some d =>
      cases d with
      | file c =>
        rw [walk_file hname he] at hw
        split at hw
        · cases hw
          exact .inr he
        · exact absurd hw (by simp)
      | directory =>
        rw [walk_directory hname he] at hw
        exact ih hw
      | link target =>
        rw [walk_link hname he] at hw
        split at hw
        · cases hw
          exact .inr he
        · exact absurd hw (by simp)

/-- A walk to a missing name arrives at what is there later, unless that is a link. -/
theorem Extends.walk_missing (h : fs.Extends fs') {follow : Bool} {dir parent : Location}
    {names : List Text} {last : Text}
    (hw : fs.walk follow dir names = .arrived (.missing parent last)) {e : Entry}
    (hget : fs'.get? (parent ++ [last]) = some e) (he : ∀ target, e ≠ .link target) :
    fs'.walk true dir names = .arrived (.found (parent ++ [last]) e) := by
  induction dir, names using walk_induct with
  | nil dir => exact absurd hw (by simp [walk])
  | pass dir dir' name names hpass ih => exact hpass _ true _ ▸ ih (hpass fs follow _ ▸ hw)
  | refuse dir name names hrefuse => exact absurd hw (by simp [hrefuse])
  | enter dir name names hname ih =>
    cases hd : fs.get? (dir ++ [name]) with
    | none =>
      rw [walk_none hname hd] at hw
      split at hw
      · cases hw
        cases e with
        | file c => rw [walk_file hname hget, if_pos ‹_›]
        | directory => rw [walk_directory hname hget, ‹names = []›, walk]
        | link target => exact absurd rfl (he target)
      · exact absurd hw (by simp)
    | some d =>
      cases d with
      | file c =>
        rw [walk_file hname hd] at hw
        split at hw <;> exact absurd hw (by simp)
      | directory =>
        rw [walk_directory hname hd] at hw
        rw [walk_directory hname (h.get?_eq hd (by simp))]
        exact ih hw
      | link target =>
        rw [walk_link hname hd] at hw
        split at hw <;> exact absurd hw (by simp)

/-! ## Paths -/

/-- A path that leads somewhere in one file system leads to a corresponding place in another, if
walks do and redirections are kept. -/
theorem resolve_transfer {follow follow' : Bool} {spot : Spot} {P : Spot → Prop}
    (hcurrent : fs'.current = fs.current)
    (harrive : ∀ dir names, fs.walk follow dir names = .arrived spot →
      ∃ spot', fs'.walk follow' dir names = .arrived spot' ∧ P spot')
    (hredirect : ∀ dir names base rest, fs.walk follow dir names = .redirected base rest →
      fs'.walk follow' dir names = .redirected base rest)
    {path : Text} (hr : fs.resolve follow path = .ok spot) :
    ∃ spot', fs'.resolve follow' path = .ok spot' ∧ P spot' := by
  have hlinks : ∀ links base names, fs.walkLinks follow links base names = .ok spot →
      ∃ spot', fs'.walkLinks follow' links base names = .ok spot' ∧ P spot' := by
    intro links base names hw
    fun_induction walkLinks fs follow links base names with
    | case1 links base names cause hwalk => exact nomatch hw
    | case2 links base names arrived hwalk =>
      cases hw
      obtain ⟨spot', hspot', hP⟩ := harrive base names hwalk
      exact ⟨spot', by rw [walkLinks.eq_def]; simp only [hspot'], hP⟩
    | case3 base names base' names' hwalk => exact nomatch hw
    | case4 base names base' names' hwalk links ih =>
      rw [walkLinks, hredirect base names base' names' hwalk]
      exact ih hw
  rw [resolve] at hr ⊢
  split at hr
  · exact nomatch hr
  · rw [if_neg ‹_›]
    split at hr
    · exact nomatch hr
    · rw [if_neg ‹_›]
      split at hr
      · exact nomatch hr
      · rw [if_neg ‹_›, hcurrent]
        exact hlinks _ _ _ hr

/-- What holds wherever a walk arrives holds wherever a path leads. -/
theorem of_resolve {P : Spot → Prop} {follow : Bool}
    (h : ∀ dir names spot, fs.walk follow dir names = .arrived spot → P spot) {path : Text}
    {spot : Spot} (hr : fs.resolve follow path = .ok spot) : P spot := by
  obtain ⟨_, -, hP⟩ := resolve_transfer (P := fun _ => P spot) rfl
    (fun dir names hw => ⟨spot, hw, h dir names spot hw⟩) (fun _ _ _ _ hw => hw) hr
  exact hP

/-- **A path that leads somewhere goes on leading there.** -/
theorem Extends.resolve_found (h : fs.Extends fs') {path : Text} {l : Location} {e : Entry}
    (hr : fs.resolve true path = .ok (.found l e)) :
    ∃ e', fs'.resolve true path = .ok (.found l e') ∧ e'.shape = e.shape := by
  obtain ⟨spot, hspot, e', rfl, hshape⟩ := resolve_transfer
    (P := fun spot => ∃ e', spot = .found l e' ∧ e'.shape = e.shape) h.current
    (fun dir names hw => by
      obtain ⟨e', hw', hshape⟩ := h.walk_found hw
      exact ⟨_, hw', e', rfl, hshape⟩)
    (fun dir names base rest hw => h.walk_redirected hw) hr
  exact ⟨e', hspot, hshape⟩

theorem get?_of_resolve_file {follow : Bool} {path c : Text} {l : Location}
    (hr : fs.resolve follow path = .ok (.found l (.file c))) : fs.get? l = some (.file c) := by
  have hin : Spot.IsIn fs (.found l (.file c)) := of_resolve (fun _ _ _ hw => isIn_of_walk hw) hr
  rcases hin with hdir | hget
  · exact absurd hdir (by simp)
  · exact hget

/-- A path to a file goes on leading to it, but the content may be another one. -/
theorem Extends.resolve_file (h : fs.Extends fs') {path c : Text} {l : Location}
    (hr : fs.resolve true path = .ok (.found l (.file c))) :
    ∃ c', fs'.resolve true path = .ok (.found l (.file c')) ∧ fs'.get? l = some (.file c') := by
  obtain ⟨e, hr', hshape⟩ := h.resolve_found hr
  obtain ⟨c', rfl⟩ := Entry.eq_file_of_shape hshape
  exact ⟨c', hr', get?_of_resolve_file hr'⟩

/-- A path to a file whose content is kept. -/
theorem Extends.resolve_file_of_kept (h : fs.Extends fs') {path c : Text} {l : Location}
    (hr : fs.resolve true path = .ok (.found l (.file c)))
    (hkept : fs'.get? l = some (.file c)) : fs'.resolve true path = .ok (.found l (.file c)) := by
  obtain ⟨c', hr', hget⟩ := h.resolve_file hr
  cases hget.symm.trans hkept
  exact hr'

/-- Both paths lead to one file. -/
def SameFile (fs : FileSystem) (p q : Text) : Prop :=
  ∃ l c, fs.resolve true p = .ok (.found l (.file c)) ∧
    fs.resolve true q = .ok (.found l (.file c))

theorem sameFile_of_resolve {p q c d : Text} {l : Location}
    (hp : fs.resolve true p = .ok (.found l (.file c)))
    (hq : fs.resolve true q = .ok (.found l (.file d))) : fs.SameFile p q := by
  cases (get?_of_resolve_file hp).symm.trans (get?_of_resolve_file hq)
  exact ⟨l, c, hp, hq⟩

instance (fs : FileSystem) (p q : Text) : Decidable (fs.SameFile p q) :=
  match hp : fs.resolve true p with
  | .ok (.found l (.file c)) =>
    decidable_of_iff ((fs.resolve true q).toOption = some (.found l (.file c))) (by
      cases hq : fs.resolve true q <;> simp [SameFile, hp, hq, Except.toOption, and_assoc])
  | .ok (.found _ .directory) => .isFalse (by simp [SameFile, hp])
  | .ok (.found _ (.link _)) => .isFalse (by simp [SameFile, hp])
  | .ok (.missing _ _) => .isFalse (by simp [SameFile, hp])
  | .error _ => .isFalse (by simp [SameFile, hp])

/-- **Paths to one file go on leading to one file.** -/
theorem Extends.sameFile (h : fs.Extends fs') {p q : Text} (hsame : fs.SameFile p q) :
    fs'.SameFile p q := by
  obtain ⟨l, c, hp, hq⟩ := hsame
  obtain ⟨c', hp', -⟩ := h.resolve_file hp
  obtain ⟨d', hq', -⟩ := h.resolve_file hq
  exact sameFile_of_resolve hp' hq'

/-- A path to a missing name leads to what is there later, unless that is a link. -/
theorem Extends.resolve_missing (h : fs.Extends fs') {follow : Bool} {path last : Text}
    {parent : Location} (hr : fs.resolve follow path = .ok (.missing parent last)) {e : Entry}
    (hget : fs'.get? (parent ++ [last]) = some e) (he : ∀ target, e ≠ .link target) :
    fs'.resolve true path = .ok (.found (parent ++ [last]) e) := by
  obtain ⟨spot, hspot, rfl⟩ := resolve_transfer (P := (· = .found (parent ++ [last]) e)) h.current
    (fun dir names hw => ⟨_, h.walk_missing hw hget he, rfl⟩)
    (fun dir names base rest hw => h.walk_redirected hw) hr
  exact hspot

theorem get?_of_resolve_missing {follow : Bool} {path last : Text} {parent : Location}
    (hr : fs.resolve follow path = .ok (.missing parent last)) :
    fs.get? (parent ++ [last]) = none :=
  of_resolve (P := Spot.IsIn fs) (fun _ _ _ hw => isIn_of_walk hw) hr

/-- What is put where a path leads to a missing name is found there. -/
theorem resolve_set_missing {follow : Bool} {path last : Text} {parent : Location}
    (hr : fs.resolve follow path = .ok (.missing parent last)) {e : Entry}
    (he : ∀ target, e ≠ .link target) :
    fs.get? (parent ++ [last]) = none ∧
      (fs.set (parent ++ [last]) e).resolve true path = .ok (.found (parent ++ [last]) e) := by
  have hnone := get?_of_resolve_missing hr
  have hgrow : fs.Extends (fs.set (parent ++ [last]) e) :=
    extends_set (by simp) fun d hd => absurd (hnone.symm.trans hd) (by simp)
  exact ⟨hnone, hgrow.resolve_missing hr (by rw [get?_set (by simp), if_pos rfl]) he⟩

/-- **Writing a file touches one place**, where there was a file or nothing, and the path leads
there afterwards. -/
theorem writeFile_spec {path content : Text} (h : fs.writeFile path content = .ok fs') :
    ∃ l, l ≠ [] ∧ fs' = fs.set l (.file content) ∧ fs.Extends fs' ∧
      fs'.resolve true path = .ok (.found l (.file content)) := by
  rw [writeFile] at h
  split at h
  · exact absurd h (by simp)
  · rename_i l c hr
    cases h
    have hget := get?_of_resolve_file hr
    have hne := ne_nil_of_get? hget (by simp)
    have hgrow : fs.Extends (fs.set l (.file content)) :=
      extends_set hne fun d hd => by rw [← Option.some.inj (hget.symm.trans hd)]; rfl
    obtain ⟨e, hr', hshape⟩ := hgrow.resolve_found hr
    obtain ⟨c', rfl⟩ := Entry.eq_file_of_shape hshape
    have hget' := get?_of_resolve_file hr'
    rw [get?_set hne, if_pos rfl] at hget'
    cases hget'
    exact ⟨l, hne, rfl, hgrow, hr'⟩
  · exact absurd h (by simp)
  · exact absurd h (by simp)
  · rename_i parent name hr
    cases h
    obtain ⟨hnone, hr'⟩ := resolve_set_missing hr (e := .file content) (by simp)
    exact ⟨parent ++ [name], by simp, rfl,
      extends_set (by simp) fun d hd => absurd (hnone.symm.trans hd) (by simp), hr'⟩

/-! ## Directories on the way -/

/-- At a place nothing has happened, or there is a new directory, to which a part of the path
leads. -/
def GrownAt (path : Text) (fs fs' : FileSystem) (l : Location) : Prop :=
  fs'.get? l = fs.get? l ∨
  (fs.get? l = none ∧ fs'.get? l = some .directory ∧
    ∃ part, part <+: path ∧ fs'.resolve true part = .ok (.found l .directory))

/-- Nothing but new directories, and each of them on the way along the path. -/
structure GrownTowards (path : Text) (fs fs' : FileSystem) : Prop where
  current : fs'.current = fs.current
  entry : ∀ l, GrownAt path fs fs' l

/-- The files are those that there were, with the content that they had. -/
def FilesKept (fs fs' : FileSystem) : Prop :=
  ∀ l c, fs'.get? l = some (.file c) ↔ fs.get? l = some (.file c)

theorem Extends.resolve_directory (h : fs.Extends fs') {part : Text} {l : Location}
    (hr : fs.resolve true part = .ok (.found l .directory)) :
    fs'.resolve true part = .ok (.found l .directory) := by
  obtain ⟨e, hr', hshape⟩ := h.resolve_found hr
  rw [hr', Entry.eq_of_shape hshape (by simp)]

theorem GrownAt.trans {path part : Text} {l : Location} {fs'' : FileSystem} (hpart : part <+: path)
    (h : GrownAt part fs fs' l) (hextend : fs'.Extends fs'') (h' : GrownAt path fs' fs'' l) :
    GrownAt path fs fs'' l := by
  rcases h with hsame | ⟨hnone, hdir, way, hway, hr⟩
  · rwa [GrownAt, ← hsame]
  · have hkept := hextend.get?_eq hdir (by simp)
    exact .inr ⟨hnone, hkept, way, hway.trans hpart, hextend.resolve_directory hr⟩

namespace GrownTowards

variable {path : Text}

theorem refl (path : Text) (fs : FileSystem) : GrownTowards path fs fs :=
  ⟨rfl, fun _ => .inl rfl⟩

theorem extend (h : GrownTowards path fs fs') : fs.Extends fs' := by
  refine ⟨h.current, fun l e he => ?_⟩
  rcases h.entry l with hsame | ⟨hnone, -⟩
  · exact ⟨e, hsame.trans he, rfl⟩
  · exact absurd (hnone.symm.trans he) (by simp)

/-- The files are those that there were. -/
theorem filesKept (h : GrownTowards path fs fs') : FilesKept fs fs' := by
  intro l c
  rcases h.entry l with hsame | ⟨hnone, hdir, -⟩
  · rw [hsame]
  · simp [hnone, hdir]

theorem trans {fs'' : FileSystem} {part : Text} (hpart : part <+: path)
    (h : GrownTowards part fs fs') (h' : GrownTowards path fs' fs'') :
    GrownTowards path fs fs'' :=
  ⟨h'.current.trans h.current, fun l => (h.entry l).trans hpart h'.extend (h'.entry l)⟩

end GrownTowards

/-- What is left of a path without some of its end leads along the path. -/
theorem reverse_prefix_of_suffix {path rest : Text} (h : rest <:+ path.reverse) :
    rest.reverse <+: path := by
  have hrev := List.reverse_prefix.mpr h
  rwa [List.reverse_reverse] at hrev

/-- The path without the slashes at its end, if that is one and the path is not too long. -/
def barePath (path : Text) : Text :=
  if (path.reverse.dropWhile (· == Path.slash)).reverse = [] ∨ path.length ≥ maxPath then path
  else (path.reverse.dropWhile (· == Path.slash)).reverse

theorem barePath_along (path : Text) : barePath path <+: path := by
  rw [barePath]
  split
  · exact List.prefix_refl path
  · exact reverse_prefix_of_suffix (List.dropWhile_suffix _)

theorem parentPath_along (path : Text) : parentPath path <+: path :=
  reverse_prefix_of_suffix ((List.dropWhile_suffix _).trans (List.dropWhile_suffix _))

/-- **A directory is made where nothing was**, and the path leads there afterwards. -/
theorem makeDirectory_spec {path : Text} (h : fs.makeDirectory path = .ok fs') :
    ∃ l, l ≠ [] ∧ fs.get? l = none ∧ fs' = fs.set l .directory ∧
      fs'.resolve true (barePath path) = .ok (.found l .directory) := by
  rw [makeDirectory] at h
  split at h
  · exact absurd h (by simp)
  · exact absurd h (by simp)
  · rename_i parent name hr
    cases h
    obtain ⟨hnone, hr'⟩ := resolve_set_missing hr (e := .directory) (by simp)
    exact ⟨parent ++ [name], by simp, hnone, rfl, hr'⟩

theorem makeDirectory_grown {path : Text} (h : fs.makeDirectory path = .ok fs') :
    GrownTowards path fs fs' := by
  obtain ⟨k, hne, hnone, rfl, hr⟩ := makeDirectory_spec h
  refine ⟨rfl, fun l => ?_⟩
  rw [GrownAt, get?_set hne]
  by_cases hl : l = k
  · subst hl
    exact .inr ⟨hnone, if_pos rfl, _, barePath_along path, hr⟩
  · exact .inl (if_neg hl)

/-- What holds if nothing is done and if one directory is made, and goes on from the path above to
the path, holds of making directories, also if that fails on the way. -/
theorem makeDirectories_induct {P : Text → FileSystem → FileSystem → Prop}
    (nothing : ∀ path fs, P path fs fs)
    (one : ∀ path fs fs', fs.makeDirectory path = .ok fs' → P path fs fs')
    (above : ∀ path fs fs' fs'', P (parentPath path) fs fs' → P path fs' fs'' → P path fs fs'')
    (fuel : Nat) (fs : FileSystem) (path : Text) : P path fs (makeDirectories fuel fs path).1 := by
  induction fuel generalizing fs path with
  | zero => exact nothing path fs
  | succ fuel ih =>
    rw [makeDirectories]
    split
    · exact nothing path fs
    · exact nothing path fs
    · simp only
      have habove : P (parentPath path) fs
          (if parentPath path = [] then (fs, .ok ())
            else makeDirectories fuel fs (parentPath path)).1 := by
        split
        · exact nothing _ fs
        · exact ih fs (parentPath path)
      generalize (if parentPath path = [] then (fs, .ok ())
        else makeDirectories fuel fs (parentPath path)) = between at habove ⊢
      split
      · exact above path fs _ _ habove (nothing path _)
      · split
        · exact above path fs _ _ habove (one path _ _ ‹_›)
        · split <;> exact above path fs _ _ habove (nothing path _)

/-- **Making directories does nothing but that**, also if it fails on the way. -/
theorem makeDirectories_grown (fuel : Nat) (fs : FileSystem) (path : Text) :
    GrownTowards path fs (makeDirectories fuel fs path).1 :=
  makeDirectories_induct GrownTowards.refl (fun _ _ _ h => makeDirectory_grown h)
    (fun path _ _ _ h h' => h.trans (parentPath_along path) h') fuel fs path

theorem makePath_grown (fs : FileSystem) (path : Text) :
    GrownTowards path fs (fs.makePath path).1 :=
  makeDirectories_grown _ fs path

/-- Putting a file somewhere takes nothing away. -/
theorem put_extends (fs : FileSystem) (path content : Text) : fs.Extends (fs.put path content) := by
  have habove : fs.Extends
      (if parentPath path = [] then fs else (fs.makePath (parentPath path)).1) := by
    split
    · exact .refl fs
    · exact (makePath_grown fs _).extend
  rw [put]
  split
  · rename_i hwrite
    obtain ⟨l, -, -, hextends, -⟩ := writeFile_spec hwrite
    exact habove.trans hextends
  · exact habove

end FileSystem
end StateForge
