import Mathlib.Data.List.TakeWhile
import StateForge.Proofs.FileSystem.Growth

/-!
# Making directories

Where the new directories are, and that they are there afterwards.

* `Path.IsPart`: a path up to one of its names. A beginning of the text is not enough, as it could
  stop in the middle of a name.
* `FileSystem.exists_part_of_makePath`: every new directory is at the end of a part of the path.
* `FileSystem.resolve_of_makeDirectories`: a path that was made leads to a directory, so that making
  it again does nothing.

A directory is made without the slashes at the end of its path. That the path with them leads to the
same place is a matter of one more name, the one for the directory itself (`walkLinks_here`).
-/

set_option autoImplicit false

namespace StateForge

/-! ## The names of a path -/

theorem Text.splitOn_ne_nil (sep : UInt8) (s : Text) : Text.splitOn sep s ≠ [] := by
  cases s with
  | nil => simp [splitOn]
  | cons b s =>
    rw [splitOn]
    split
    · simp
    · split <;> simp

theorem Text.splitOn_append (sep : UInt8) (s t : Text) :
    Text.splitOn sep (s ++ sep :: t) = Text.splitOn sep s ++ Text.splitOn sep t := by
  induction s with
  | nil => simp [splitOn]
  | cons b s ih =>
    rw [List.cons_append, splitOn, splitOn, ih]
    split
    · rfl
    · obtain ⟨piece, pieces, hpieces⟩ := List.exists_cons_of_ne_nil (splitOn_ne_nil sep s)
      rw [hpieces]
      rfl

namespace Path

theorem names_append (p q : Text) : names (p ++ slash :: q) = names p ++ names q := by
  rw [names, Text.splitOn_append, List.filter_append]
  rfl

/-- Slashes at the end add no names. -/
theorem names_slashes (p : Text) {q : Text} (h : ∀ b ∈ q, b = slash) :
    names (p ++ q) = names p := by
  induction q generalizing p with
  | nil => rw [List.append_nil]
  | cons b q ih =>
    obtain ⟨rfl, hq⟩ := List.forall_mem_cons.mp h
    have hnone : names q = [] := ih [] hq
    rw [names_append, hnone, List.append_nil]

/-- The path up to one of its names. -/
structure IsPart (part path : Text) : Prop where
  text : part <+: path
  names : Path.names part <+: Path.names path

theorem IsPart.trans {p q r : Text} (h : IsPart p q) (h' : IsPart q r) : IsPart p r :=
  ⟨h.text.trans h'.text, h.names.trans h'.names⟩

end Path

namespace FileSystem

open StateForge.Path

/-- A path is what is left without the slashes at its end, and these slashes. -/
theorem exists_slashes (path : Text) :
    ∃ q : Text, path = (path.reverse.dropWhile (· == slash)).reverse ++ q ∧ ∀ b ∈ q, b = slash := by
  refine ⟨(path.reverse.takeWhile (· == slash)).reverse, ?_, fun b hb => ?_⟩
  · rw [← List.reverse_append, List.takeWhile_append_dropWhile, List.reverse_reverse]
  · simpa using List.mem_takeWhile_imp (List.mem_reverse.mp hb)

theorem isPart_barePath (path : Text) : IsPart (barePath path) path := by
  refine ⟨barePath_along path, ?_⟩
  obtain ⟨q, hq, hslashes⟩ := exists_slashes path
  rw [barePath]
  split
  · exact List.prefix_refl _
  · have hnames := names_slashes (path.reverse.dropWhile (· == slash)).reverse hslashes
    rw [← hq] at hnames
    exact hnames ▸ List.prefix_refl _

/-- The path above ends with a slash, or there is none. -/
theorem parentPath_cases (path : Text) :
    parentPath path = [] ∨ ∃ p, parentPath path = p ++ [slash] := by
  rw [parentPath]
  cases h : (path.reverse.dropWhile (· == slash)).dropWhile (· != slash) with
  | nil => exact .inl rfl
  | cons b p =>
    have hb := List.head?_dropWhile_not (p := (· != slash)) (path.reverse.dropWhile (· == slash))
    rw [h] at hb
    obtain rfl : b = slash := by simpa using hb
    exact .inr ⟨p.reverse, List.reverse_cons⟩

theorem isPart_parentPath (path : Text) : IsPart (parentPath path) path := by
  refine ⟨parentPath_along path, ?_⟩
  rcases parentPath_cases path with hnil | ⟨p, hp⟩
  · rw [hnil]
    exact List.nil_prefix
  · obtain ⟨rest, hrest⟩ := parentPath_along path
    rw [hp, List.append_assoc, List.singleton_append] at hrest
    rw [hp, names_slashes p (by simp), ← hrest, names_append]
    exact List.prefix_append _ _

/-! ## Where new directories are -/

variable {fs fs' : FileSystem}

/-- Every new directory is at the end of a part of the path. -/
def NewAreParts (path : Text) (fs fs' : FileSystem) : Prop :=
  ∀ l, fs.get? l = none → fs'.get? l = some .directory →
    ∃ part, IsPart part path ∧ fs'.resolve true part = .ok (.found l .directory)

theorem newAreParts_of_makeDirectory {path : Text} (h : fs.makeDirectory path = .ok fs') :
    NewAreParts path fs fs' := by
  obtain ⟨k, hne, -, rfl, hr⟩ := makeDirectory_spec h
  intro l hnone hnew
  rw [get?_set hne] at hnew
  by_cases hl : l = k
  · subst hl
    exact ⟨_, isPart_barePath path, hr⟩
  · rw [if_neg hl, hnone] at hnew
    exact absurd hnew (by simp)

theorem NewAreParts.trans {path part : Text} {fs'' : FileSystem} (hpart : IsPart part path)
    (h : NewAreParts part fs fs') (hextends : fs'.Extends fs'') (h' : NewAreParts path fs' fs'') :
    NewAreParts path fs fs'' := by
  intro l hnone hnew
  cases hbetween : fs'.get? l with
  | none => exact h' l hbetween hnew
  | some e =>
    obtain ⟨e', he', hshape⟩ := hextends.kept l e hbetween
    cases he'.symm.trans hnew
    obtain rfl := Entry.eq_of_shape hshape.symm (by simp)
    obtain ⟨way, hway, hr⟩ := h l hnone hbetween
    exact ⟨way, hway.trans hpart, hextends.resolve_directory hr⟩

/-- **Every new directory is at the end of a part of the path**, also if not all could be made. -/
theorem exists_part_of_makePath (fs : FileSystem) (path : Text) :
    NewAreParts path fs (fs.makePath path).1 := by
  refine (makeDirectories_induct (P := fun path fs fs' => fs.Extends fs' ∧ NewAreParts path fs fs')
    ?_ ?_ ?_ _ fs path).2
  · exact fun path fs => ⟨.refl fs, fun l hnone hnew => absurd (hnone.symm.trans hnew) (by simp)⟩
  · exact fun path fs fs' h => ⟨(makeDirectory_grown h).extend, newAreParts_of_makeDirectory h⟩
  · exact fun path fs fs' fs'' h h' =>
      ⟨h.1.trans h'.1, h.2.trans (isPart_parentPath path) h'.1 h'.2⟩

/-! ## A path that was made -/

/-- A walk over more names goes on where the walk over the first of them ends, in a directory or at
a link. -/
theorem walk_append (fs : FileSystem) (more : List Text) (dir : Location) (names : List Text) :
    (∀ l, fs.walk true dir names = .arrived (.found l .directory) →
      fs.walk true dir (names ++ more) = fs.walk true l more) ∧
    ∀ base rest, fs.walk true dir names = .redirected base rest →
      fs.walk true dir (names ++ more) = .redirected base (rest ++ more) := by
  induction dir, names using walk_induct with
  | nil dir =>
    refine ⟨fun l hw => ?_, fun base rest hw => absurd hw (by simp [walk])⟩
    cases hw
    rfl
  | pass dir dir' name names hpass ih =>
    rw [List.cons_append, hpass, hpass]
    exact ih
  | refuse dir name names hrefuse => simp [hrefuse]
  | enter dir name names hname ih =>
    rw [List.cons_append]
    cases he : fs.get? (dir ++ [name]) with
    | none =>
      rw [walk_none hname he]
      split <;> simp
    | some e =>
      cases e with
      | file c =>
        rw [walk_file hname he]
        split <;> simp
      | directory =>
        rw [walk_directory hname he, walk_directory hname he]
        exact ih
      | link target =>
        have hfollow : ∀ rest : List Text, ¬ (rest = [] ∧ !true) := by simp
        rw [walk_link hname he, walk_link hname he, if_neg (hfollow _), if_neg (hfollow _)]
        refine ⟨fun l hw => absurd hw (by simp), fun base rest hw => ?_⟩
        cases hw
        rw [List.append_assoc]

/-- After a directory, the name for the directory itself changes nothing. -/
theorem walkLinks_here {links : Nat} {base l : Location} {names : List Text}
    (hw : fs.walkLinks true links base names = .ok (.found l .directory)) :
    fs.walkLinks true links base (names ++ [here]) = .ok (.found l .directory) := by
  fun_induction walkLinks fs true links base names with
  | case1 links base names cause hwalk => exact absurd hw (by simp)
  | case2 links base names arrived hwalk =>
    cases hw
    have hgo : fs.walk true base (names ++ [here]) = .arrived (.found l .directory) := by
      rw [(fs.walk_append [here] base names).1 l hwalk, walk, if_pos rfl, walk]
    rw [walkLinks.eq_def]
    simp only [hgo]
  | case3 base names base' names' hwalk => exact absurd hw (by simp)
  | case4 base names base' names' hwalk links ih =>
    rw [walkLinks, (fs.walk_append [here] base names).2 base' names' hwalk]
    exact ih hw

/-- Slashes after a path to a directory lead to the same place, unless they make it too long. -/
theorem resolve_slashes {p q : Text} (hq : ∀ b ∈ q, b = slash) (hshort : (p ++ q).length < maxPath)
    {l : Location} (hr : fs.resolve true p = .ok (.found l .directory)) :
    fs.resolve true (p ++ q) = .ok (.found l .directory) := by
  rcases List.eq_nil_or_concat q with rfl | ⟨q', b, hconcat⟩
  · rwa [List.append_nil]
  rw [resolve] at hr
  split at hr
  · exact absurd hr (by simp)
  split at hr
  · exact absurd hr (by simp)
  split at hr
  · exact absurd hr (by simp)
  rename_i hnul hne _
  have hnul' : (0 : UInt8) ∉ p ++ q := by
    rw [List.mem_append, not_or]
    exact ⟨hnul, fun h => absurd (hq 0 h) (by decide)⟩
  have habsolute : isAbsolute (p ++ q) = isAbsolute p := by
    rw [isAbsolute, isAbsolute, List.head?_append, List.head?_eq_some_head hne, Option.some_or]
  -- the names are the same, and the slash at the end adds the one for the directory itself
  have hsteps : steps (p ++ q) = names p ++ [here] := by
    obtain rfl : b = slash := hq b (by simp [hconcat])
    rw [steps, names_slashes p hq, hconcat, if_pos (by simp)]
  rw [resolve, if_neg hnul', if_neg (by simp [hne]), if_neg (Nat.not_le.mpr hshort), habsolute,
    hsteps]
  rw [steps] at hr
  by_cases hlast : p.getLast? = some slash
  · rwa [if_pos hlast] at hr
  · rw [if_neg hlast, List.append_nil] at hr
    exact walkLinks_here hr

theorem resolve_of_makeDirectory {path : Text} (h : fs.makeDirectory path = .ok fs') :
    ∃ l, fs'.resolve true path = .ok (.found l .directory) := by
  obtain ⟨l, -, -, -, hr⟩ := makeDirectory_spec h
  refine ⟨l, ?_⟩
  rw [barePath] at hr
  split at hr
  · exact hr
  · rename_i hbare
    obtain ⟨q, hq, hslashes⟩ := exists_slashes path
    have hshort : path.length < maxPath := Nat.not_le.mp fun hlong => hbare (.inr hlong)
    rw [hq] at hshort ⊢
    exact resolve_slashes hslashes hshort hr

/-- A path to a directory leads there also if links at its end are followed. -/
theorem resolve_of_isDirectory {path : Text} (h : fs.isDirectory path = true) :
    ∃ l, fs.resolve true path = .ok (.found l .directory) := by
  rw [isDirectory] at h
  split at h
  · rename_i l hr
    have hwalk : ∀ dir names, fs.walk false dir names = .arrived (.found l .directory) →
        ∃ spot, fs.walk true dir names = .arrived spot ∧ spot = .found l .directory := by
      intro dir names hw
      refine ⟨_, ?_, rfl⟩
      induction dir, names using walk_induct with
      | nil dir => exact hw
      | pass dir dir' name names hpass ih => exact hpass fs true _ ▸ ih (hpass fs false _ ▸ hw)
      | refuse dir name names hrefuse => exact absurd hw (by simp [hrefuse])
      | enter dir name names hname ih =>
        cases he : fs.get? (dir ++ [name]) with
        | none =>
          rw [walk_none hname he] at hw
          split at hw <;> exact absurd hw (by simp)
        | some e =>
          cases e with
          | file c =>
            rw [walk_file hname he] at hw
            split at hw <;> exact absurd hw (by simp)
          | directory =>
            rw [walk_directory hname he] at hw ⊢
            exact ih hw
          | link target =>
            rw [walk_link hname he] at hw
            split at hw <;> exact absurd hw (by simp)
    obtain ⟨_, hr', rfl⟩ := resolve_transfer (P := (· = .found l .directory)) rfl hwalk
      (fun _ _ _ _ hw => (Extends.refl fs).walk_redirected hw) hr
    exact ⟨l, hr'⟩
  · exact absurd h (by simp)

theorem stat_eq_ok_iff {path : Text} {e : Entry} :
    fs.stat path = .ok e ↔ ∃ l, fs.resolve true path = .ok (.found l e) := by
  rw [stat]
  split
  · simp [*]
  · simp [*]
  · simp [*]

/-- **A path that was made leads to a directory.** -/
theorem resolve_of_makeDirectories {fuel : Nat} {path : Text}
    (h : makeDirectories fuel fs path = (fs', .ok ())) :
    ∃ l, fs'.resolve true path = .ok (.found l .directory) := by
  cases fuel with
  | zero => exact absurd h (by simp [makeDirectories])
  | succ fuel =>
    rw [makeDirectories] at h
    split at h
    · cases h
      exact stat_eq_ok_iff.mp ‹_›
    · exact absurd h (by simp)
    · simp only at h
      generalize (if parentPath path = [] then (fs, .ok ())
        else makeDirectories fuel fs (parentPath path)) = between at h
      split at h
      · exact absurd h (by simp)
      · split at h
        · cases h
          exact resolve_of_makeDirectory ‹_›
        · split at h
          · cases h
            exact resolve_of_isDirectory ‹_›
          · exact absurd h (by simp)

/-- Making a path that leads to a directory does nothing. -/
theorem makePath_of_resolve {path : Text} {l : Location}
    (h : fs.resolve true path = .ok (.found l .directory)) : fs.makePath path = (fs, .ok ()) := by
  rw [makePath, makeDirectories, stat_eq_ok_iff.mpr ⟨l, h⟩]

end FileSystem
end StateForge
