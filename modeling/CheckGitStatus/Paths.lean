import CheckGitStatus.FileSystem

/-! # Cleaned paths

`filepath.Clean` resolves the components of a path one after the other. What it makes of
a path from the root of the file system is the chain of the names that are left
(`CheckGitStatus.cleanPath_isClean`), and such paths stay clean below a directory
(`CheckGitStatus.IsClean.joinPath`).
-/

namespace CheckGitStatus

/-- The texts between the slashes of a path that are not empty. -/
def components (path : Path) : List Text :=
  (path.splitOn slash).filter fun component => component ≠ []

/-- One component of a path that is being cleaned: the names so far, last one first. -/
def resolveComponent (rooted : Bool) (names : List Text) (component : Text) : List Text :=
  if component = ascii "." then names
  else if component = ascii ".." then
    match names with
    | [] => if rooted then [] else [component]
    | last :: rest => if last = ascii ".." then component :: names else rest
  else component :: names

/-- `filepath.Clean`. -/
def cleanPath (path : Path) : Path :=
  let rooted := path.head? == some slash
  let names := ((components path).foldl (resolveComponent rooted) []).reverse
  if rooted then slash :: [slash].intercalate names
  else if names = [] then ascii "."
  else [slash].intercalate names

/-- A path from the root of the file system along names. -/
def IsClean (path : Path) : Prop :=
  ∃ names : List Text, (∀ name ∈ names, ValidName name) ∧ path = FileSystem.descend [slash] names

/-! ## Components -/

/-- A component is not empty and has no separator in it. -/
theorem mem_components {path : Path} {component : Text} (inside : component ∈ components path) :
    component ≠ [] ∧ slash ∉ component := by
  obtain ⟨piece, nonempty⟩ := List.mem_filter.mp inside
  exact ⟨of_decide_eq_true nonempty, not_mem_of_mem_splitOn piece⟩

/-- The components on both sides of a slash. -/
theorem components_append (left right : Path) :
    components (left ++ slash :: right) = components left ++ components right := by
  rw [components, List.splitOn_append_cons_self, List.filter_append]
  rfl

/-- A name is its only component. -/
theorem components_of_validName {name : Text} (valid : ValidName name) :
    components name = [name] := by
  rw [components, List.splitOn_eq_singleton valid.no_slash]
  exact List.filter_eq_self.mpr fun component inside => by
    rw [List.mem_singleton.mp inside]
    exact decide_eq_true valid.nonempty

/-- `operator/` adds no slash behind another one. -/
theorem components_joinPath {current : Path} (rooted : current.head? = some slash) (name : Path) :
    components (joinPath current name) = components (current ++ slash :: name) := by
  unfold joinPath
  split
  · rfl
  · rename_i unnamed
    rw [not_not] at unnamed
    have nonempty : current ≠ [] := by
      rintro rfl
      cases rooted
    obtain ⟨front, last, rfl⟩ := (List.eq_nil_or_concat' current).resolve_left nonempty
    have ends : last = slash := by
      by_contra other
      have kept := List.rtakeWhile_concat_pos (fun byte => byte != slash) front last
        (bne_iff_ne.mpr other)
      rw [filename, kept] at unnamed
      exact List.append_ne_nil_of_right_ne_nil _ (List.cons_ne_nil _ _) unnamed
    have empty : components [] = [] := by decide
    subst ends
    rw [components_append, List.append_assoc, List.singleton_append, components_append,
      components_append, empty, List.append_nil]

theorem joinPath_head? {current : Path} (rooted : current.head? = some slash) (name : Path) :
    (joinPath current name).head? = some slash := by
  have nonempty : current ≠ [] := by
    rintro rfl
    cases rooted
  unfold joinPath
  split <;> rw [List.head?_append_of_ne_nil _ nonempty, rooted]

/-- Cleaning does not see how a name was appended. -/
theorem cleanPath_joinPath {current : Path} (rooted : current.head? = some slash) (name : Path) :
    cleanPath (joinPath current name) = cleanPath (current ++ slash :: name) := by
  have nonempty : current ≠ [] := by
    rintro rfl
    cases rooted
  have appended : (current ++ slash :: name).head? = some slash := by
    rw [List.head?_append_of_ne_nil _ nonempty, rooted]
  simp only [cleanPath, joinPath_head? rooted, appended, components_joinPath rooted]

/-- The path along names, without the root it starts from. -/
theorem stem_descend {path : Path} (bare : NoTrailingSeparator path) {names : List Text}
    (valid : ∀ name ∈ names, ValidName name) :
    stem (FileSystem.descend path names) = stem path ++ names.flatMap fun name => slash :: name := by
  induction names generalizing path with
  | nil => exact (List.append_nil _).symm
  | cons name rest ih =>
      have nameValid := valid name List.mem_cons_self
      have below := noTrailingSeparator_joinPath path nameValid
      have notRoot : joinPath path name ≠ [slash] := by
        intro same
        have named := filename_joinPath path nameValid
        rw [same] at named
        exact nameValid.nonempty named.symm
      have joined : stem (joinPath path name) = stem path ++ slash :: name := by
        rw [stem, if_neg notRoot, joinPath_eq bare]
      rw [FileSystem.descend, List.foldl_cons, ← FileSystem.descend,
        ih below fun other inside => valid other (List.mem_cons_of_mem _ inside), joined,
        List.append_assoc, List.flatMap_cons]

/-- Going down proper names leaves no separator at the end. -/
theorem descend_noTrailingSeparator {path : Path} (bare : NoTrailingSeparator path)
    {names : List Text} (valid : ∀ name ∈ names, ValidName name) :
    NoTrailingSeparator (FileSystem.descend path names) := by
  induction names generalizing path with
  | nil => exact bare
  | cons name rest ih =>
      exact ih (noTrailingSeparator_joinPath path (valid name List.mem_cons_self))
        fun other inside => valid other (List.mem_cons_of_mem _ inside)

/-- Names joined by slashes, with a slash in front. -/
theorem slash_intercalate {names : List Text} (nonempty : names ≠ []) :
    slash :: [slash].intercalate names = names.flatMap fun name => slash :: name := by
  induction names with
  | nil => exact absurd rfl nonempty
  | cons name rest ih =>
      cases rest with
      | nil => simp only [List.intercalate_singleton, List.flatMap_cons, List.flatMap_nil,
          List.append_nil]
      | cons next others =>
          rw [List.intercalate_cons_cons, List.flatMap_cons, ← ih (List.cons_ne_nil _ _),
            List.append_assoc, List.singleton_append, List.cons_append]

/-- The root counts as a path without a separator at the end. -/
theorem rootBare : NoTrailingSeparator [slash] :=
  .inr rfl

/-- Names joined by slashes, from the root of the file system. -/
theorem descend_eq_intercalate {names : List Text} (valid : ∀ name ∈ names, ValidName name) :
    FileSystem.descend [slash] names = slash :: [slash].intercalate names := by
  by_cases nonempty : names = []
  · rw [nonempty]
    rfl
  · have whole := stem_descend rootBare valid
    have notRoot : FileSystem.descend [slash] names ≠ [slash] := by
      intro same
      rw [same, ← slash_intercalate nonempty] at whole
      exact List.cons_ne_nil _ _ whole.symm
    rw [stem, if_neg notRoot] at whole
    rw [whole, slash_intercalate nonempty]
    rfl

/-! ## Cleaning -/

/-- A proper name is put on the names as it is. -/
theorem resolveComponent_validName {name : Text} (valid : ValidName name) (rooted : Bool)
    (names : List Text) : resolveComponent rooted names name = name :: names := by
  simp only [resolveComponent, valid.not_dot, valid.not_dotdot, ↓reduceIte]

/-- Below the root of the file system only names are kept. -/
theorem resolveComponent_valid {names : List Text} (valid : ∀ name ∈ names, ValidName name)
    {component : Text} (proper : component ≠ [] ∧ slash ∉ component) :
    ∀ name ∈ resolveComponent true names component, ValidName name := by
  unfold resolveComponent
  by_cases dot : component = ascii "."
  · rw [if_pos dot]
    exact valid
  by_cases dotdot : component = ascii ".."
  · rw [if_neg dot, if_pos dotdot]
    cases names with
    | nil => exact fun name inside => absurd inside List.not_mem_nil
    | cons last rest =>
        have kept : last ≠ ascii ".." := (valid last List.mem_cons_self).not_dotdot
        dsimp only
        rw [if_neg kept]
        exact fun name inside => valid name (List.mem_cons_of_mem _ inside)
  · rw [if_neg dot, if_neg dotdot]
    intro name inside
    rcases List.mem_cons.mp inside with rfl | earlier
    · exact ⟨proper.1, proper.2, dot, dotdot⟩
    · exact valid name earlier

theorem foldl_resolveComponent_valid {names : List Text} (valid : ∀ name ∈ names, ValidName name)
    {rest : List Text} (proper : ∀ component ∈ rest, component ≠ [] ∧ slash ∉ component) :
    ∀ name ∈ rest.foldl (resolveComponent true) names, ValidName name := by
  induction rest generalizing names with
  | nil => exact valid
  | cons component rest ih =>
      exact ih (resolveComponent_valid valid (proper component List.mem_cons_self))
        fun other inside => proper other (List.mem_cons_of_mem _ inside)

/-- The names that a path from the root of the file system is resolved to. -/
def resolvedNames (path : Path) : List Text :=
  ((components path).foldl (resolveComponent true) []).reverse

theorem resolvedNames_valid (path : Path) : ∀ name ∈ resolvedNames path, ValidName name := by
  intro name inside
  exact foldl_resolveComponent_valid (fun other absent => absurd absent List.not_mem_nil)
    (fun component => mem_components) name (List.mem_reverse.mp inside)

/-- The clean form of an absolute path goes down its resolved names from the root. -/
theorem cleanPath_eq_descend {path : Path} (rooted : path.head? = some slash) :
    cleanPath path = FileSystem.descend [slash] (resolvedNames path) := by
  rw [descend_eq_intercalate (resolvedNames_valid path)]
  simp only [cleanPath, rooted, BEq.rfl, ↓reduceIte, resolvedNames]

/-- What is cleaned is clean. -/
theorem cleanPath_isClean {path : Path} (rooted : path.head? = some slash) :
    IsClean (cleanPath path) :=
  ⟨resolvedNames path, resolvedNames_valid path, cleanPath_eq_descend rooted⟩

example : cleanPath (ascii "/a/./b//../../../c/") = ascii "/c" := by decide

/-- Names that follow a path are resolved to themselves. -/
theorem foldl_resolveComponent_names {names : List Text} (valid : ∀ name ∈ names, ValidName name)
    (rooted : Bool) (before : List Text) :
    names.foldl (resolveComponent rooted) before = names.reverse ++ before := by
  induction names generalizing before with
  | nil => rfl
  | cons name rest ih =>
      rw [List.foldl_cons, resolveComponent_validName (valid name List.mem_cons_self),
        ih fun other inside => valid other (List.mem_cons_of_mem _ inside), List.reverse_cons,
        List.append_assoc, List.singleton_append]

/-- The components of a path that goes down proper names are these names. -/
theorem components_descend {names : List Text} (valid : ∀ name ∈ names, ValidName name) :
    components (FileSystem.descend [slash] names) = names := by
  rw [descend_eq_intercalate valid]
  by_cases nonempty : names = []
  · rw [nonempty]
    decide
  · have empty : components [] = [] := by decide
    have split := components_append [] ([slash].intercalate names)
    rw [List.nil_append, empty, List.nil_append] at split
    rw [split, components, List.splitOn_intercalate slash
      (fun name inside => (valid name inside).no_slash) nonempty]
    exact List.filter_eq_self.mpr fun name inside => decide_eq_true (valid name inside).nonempty

namespace IsClean

variable {path : Path}

theorem noTrailingSeparator (clean : IsClean path) : NoTrailingSeparator path := by
  obtain ⟨names, valid, rfl⟩ := clean
  exact descend_noTrailingSeparator rootBare valid

/-- A name below a clean path. -/
theorem joinPath (clean : IsClean path) {name : Text} (valid : ValidName name) :
    IsClean (joinPath path name) := by
  obtain ⟨names, namesValid, rfl⟩ := clean
  refine ⟨names ++ [name], ?_, (FileSystem.descend_concat _ names name).symm⟩
  intro other inside
  rcases List.mem_append.mp inside with before | last
  · exact namesValid other before
  · rw [List.mem_singleton.mp last]
    exact valid

/-- `filepath.Join` of a clean path and a name. -/
theorem cleanPath_append (clean : IsClean path) {name : Text} (valid : ValidName name) :
    cleanPath (path ++ slash :: name) = CheckGitStatus.joinPath path name := by
  obtain ⟨names, namesValid, rfl⟩ := clean
  have rooted : (FileSystem.descend [slash] names ++ slash :: name).head? = some slash := by
    rw [descend_eq_intercalate namesValid]
    rfl
  have resolved : resolvedNames (FileSystem.descend [slash] names ++ slash :: name) =
      names ++ [name] := by
    rw [resolvedNames, components_append, components_descend namesValid,
      components_of_validName valid, List.foldl_append, foldl_resolveComponent_names namesValid,
      List.foldl_cons, List.foldl_nil, resolveComponent_validName valid, List.reverse_cons,
      List.append_nil, List.reverse_reverse]
  rw [cleanPath_eq_descend rooted, resolved, FileSystem.descend_concat]

end IsClean

end CheckGitStatus
