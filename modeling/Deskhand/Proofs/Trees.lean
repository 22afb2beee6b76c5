import Mathlib.Data.List.Induction
import Deskhand.World.Files
import Deskhand.Proofs.Fallible
import Deskhand.Proofs.Paths

/-!
# Trees of files

A tree is well formed if every place in it is there once, under a single name in a directory
(`Files.WellFormed`). What is in such a tree does not depend on the order in which its places are
kept (`Files.WellFormed.of_perm`), and a path that leads to a directory leads on to what is in it
(`Files.find_join`). The skill files below a directory are those in it and those below the
directories in it (`Files.WellFormed.mem_skillsBelow_iff`).
-/

namespace Deskhand

namespace Files

/-- Every place is there once, under a single name in a directory. -/
structure WellFormed (files : Files) : Prop where
  distinct : (files.nodes.map (·.1)).Nodup
  placed : ∀ e ∈ files.nodes, ∃ above name, e.1 = above ++ [name] ∧ Path.IsName name ∧
    files.node? above = some .directory

variable {files : Files} {place : Place} {node : Node} {name : String}

/-! ## What is at a place -/

theorem find?_eq_some_iff {nodes : List (Place × Node)} (h : (nodes.map (·.1)).Nodup) :
    (nodes.find? (·.1 = place)).map (·.2) = some node ↔ (place, node) ∈ nodes := by
  induction nodes with
  | nil => simp
  | cons e rest ih =>
    obtain ⟨hnew, hrest⟩ := List.nodup_cons.1 h
    obtain ⟨p, n⟩ := e
    by_cases hp : p = place
    · subst hp
      have hnot : (p, node) ∉ rest := fun hmem => hnew (List.mem_map.2 ⟨_, hmem, rfl⟩)
      simp [hnot, eq_comm]
    · simp [hp, Ne.symm hp, ih hrest]

/-- The working directory and the root are directories whatever the tree holds. -/
def IsTop (place : Place) : Prop := place = [] ∨ place = [Path.root]

theorem node?_of_isTop (h : IsTop place) : files.node? place = some .directory := if_pos h

theorem not_isTop_concat (hname : Path.IsName name) : ¬IsTop (place ++ [name]) := by
  rintro (h | h)
  · exact List.append_ne_nil_of_right_ne_nil _ (List.cons_ne_nil _ _) h
  · have hlast := congrArg List.getLast? h
    rw [List.getLast?_concat] at hlast
    exact hname.ne_root (Option.some.inj hlast)

namespace WellFormed

theorem node?_eq_some_iff (h : files.WellFormed) (hplace : ¬IsTop place) :
    files.node? place = some node ↔ (place, node) ∈ files.nodes := by
  have hfind : files.node? place = (files.nodes.find? (·.1 = place)).map (·.2) := if_neg hplace
  rw [hfind, find?_eq_some_iff h.distinct]

theorem node?_concat (h : files.WellFormed) (hname : Path.IsName name) :
    files.node? (place ++ [name]) = some node ↔ (place ++ [name], node) ∈ files.nodes :=
  h.node?_eq_some_iff (not_isTop_concat hname)

theorem not_isTop (h : files.WellFormed) (hmem : (place, node) ∈ files.nodes) : ¬IsTop place := by
  obtain ⟨above, name, rfl, hname, -⟩ := h.placed _ hmem
  exact not_isTop_concat hname

/-- Names that lead to something lead through directories. -/
theorem directory_above (h : files.WellFormed) {more : List String} (hmore : more ≠ [])
    (hnode : files.node? (place ++ more) = some node) : files.node? place = some .directory := by
  induction more using List.reverseRecOn generalizing node with
  | nil => exact absurd rfl hmore
  | append_singleton front name ih =>
    rw [← List.append_assoc] at hnode
    have habove : files.node? (place ++ front) = some .directory := by
      by_cases htop : IsTop (place ++ front ++ [name])
      · -- the root is not below anything but the working directory
        have hnil : place ++ front = [] := by
          rcases htop with htop | htop
          · exact absurd htop (List.append_ne_nil_of_right_ne_nil _ (List.cons_ne_nil _ _))
          · simpa using congrArg List.dropLast htop
        rw [hnil]
        exact node?_of_isTop (.inl rfl)
      · obtain ⟨above, last, hplace, -, habove⟩ :=
          h.placed _ ((h.node?_eq_some_iff htop).1 hnode)
        rwa [(List.append_inj' hplace rfl).1]
    cases front with
    | nil => rwa [List.append_nil] at habove
    | cons first front => exact ih (List.cons_ne_nil _ _) habove

theorem isName_of_concat (h : files.WellFormed) (hname : name ≠ Path.root ∨ place ≠ [])
    (hnode : files.node? (place ++ [name]) = some node) : Path.IsName name := by
  have htop : ¬IsTop (place ++ [name]) := by
    rintro (htop | htop)
    · exact List.append_ne_nil_of_right_ne_nil _ (List.cons_ne_nil _ _) htop
    · have hroot : place ++ [name] = [] ++ [Path.root] := htop
      obtain ⟨hplace, hlast⟩ := List.append_inj' hroot rfl
      exact hname.elim (fun hne => hne (List.cons.inj hlast).1) fun hne => hne hplace
  obtain ⟨above, last, hplace, hlast, -⟩ := h.placed _ ((h.node?_eq_some_iff htop).1 hnode)
  obtain ⟨-, heq⟩ := List.append_inj' hplace rfl
  exact (List.cons.inj heq).1 ▸ hlast

/-- Names that lead from a directory to something below it are single names. -/
theorem isName_below (h : files.WellFormed) {rel : List String} (hrel : rel.head? ≠ some Path.root)
    (hnode : files.node? (place ++ rel) = some node) : ∀ name ∈ rel, Path.IsName name := by
  intro name hname
  obtain ⟨front, back, rfl⟩ := List.append_of_mem hname
  have hat : ∃ node, files.node? (place ++ front ++ [name]) = some node := by
    cases back with
    | nil => exact ⟨node, by rwa [List.append_assoc]⟩
    | cons next back =>
      have hsplit : place ++ (front ++ name :: next :: back) =
          place ++ front ++ [name] ++ next :: back := by simp
      exact ⟨_, h.directory_above (List.cons_ne_nil _ _) (hsplit ▸ hnode)⟩
  obtain ⟨node, hnode⟩ := hat
  refine h.isName_of_concat ?_ hnode
  cases front with
  | nil => exact .inl fun heq => hrel (by rw [heq]; rfl)
  | cons first front => exact .inr (by simp)

/-! ## The order of the places -/

theorem of_perm (h : files.WellFormed) {files' : Files} (horder : files'.nodes.Perm files.nodes) :
    files'.WellFormed ∧ ∀ place, files'.node? place = files.node? place := by
  have hdistinct : (files'.nodes.map (·.1)).Nodup := (horder.map _).nodup_iff.2 h.distinct
  have hsame : ∀ place, files'.node? place = files.node? place := by
    intro place
    unfold node?
    split
    · rfl
    · refine Option.ext fun node => ?_
      rw [find?_eq_some_iff hdistinct, find?_eq_some_iff h.distinct, horder.mem_iff]
  refine ⟨⟨hdistinct, fun e he => ?_⟩, hsame⟩
  obtain ⟨above, name, hplace, hname, habove⟩ := h.placed e (horder.mem_iff.1 he)
  exact ⟨above, name, hplace, hname, (hsame above).trans habove⟩

end WellFormed

/-! ## Paths to directories -/

theorem walk_concat {start : Place} {names : List String} (h : files.walk start names = .ok place)
    (hplace : files.node? place = some .directory) (hname : name ≠ "..") :
    files.walk start (names ++ [name]) = .ok (place ++ [name]) := by
  induction names generalizing start with
  | nil =>
    cases h
    rw [List.nil_append, walk, hplace]
    exact if_neg hname
  | cons first rest ih =>
    rw [List.cons_append]
    unfold walk at h ⊢
    split at h
    · cases h
    · cases h
    · next hdirectory =>
      split at h
      · next hup => rw [if_pos hup]; exact ih h
      · next hup => rw [if_neg hup]; exact ih h

/-- Where a path leads depends on what is at each place only. -/
theorem find_congr {files' : Files} (h : ∀ place, files'.node? place = files.node? place)
    (path : String) : files'.find path = files.find path := by
  have hwalk : ∀ start names, files'.walk start names = files.walk start names := by
    intro start names
    induction names generalizing start with
    | nil => rfl
    | cons name rest ih => rw [walk, walk, h, ih, ih]
  unfold find locate
  simp only [hwalk, h]

theorem ne_empty_of_find {path : String} (h : files.find path = .ok (place, node)) : path ≠ "" := by
  rintro rfl
  cases h

theorem find_directory {path : String} : files.find path = .ok (place, .directory) ↔
    files.locate path = .ok place ∧ files.node? place = some .directory := by
  unfold find
  cases files.locate path with
  | error e => exact ⟨nofun, fun h => nomatch h.1⟩
  | ok found =>
    rw [ok_bind, Except.ok.injEq]
    cases hnode : files.node? found with
    | none => exact ⟨nofun, by rintro ⟨rfl, h⟩; exact nomatch hnode.symm.trans h⟩
    | some node =>
      cases node with
      | directory => exact ⟨fun h => by cases h; exact ⟨rfl, hnode⟩, fun ⟨h, _⟩ => by rw [h]⟩
      | file bytes =>
        refine ⟨fun h => ?_, by rintro ⟨rfl, h⟩; exact nomatch hnode.symm.trans h⟩
        dsimp only at h
        split at h <;> cases h

theorem locate_join {path : String} (h : files.find path = .ok (place, .directory))
    (hname : Path.IsName name) : files.locate (Path.join path name) = .ok (place ++ [name]) := by
  have hpath := ne_empty_of_find h
  obtain ⟨hlocate, hplace⟩ := find_directory.1 h
  unfold locate at hlocate ⊢
  rw [if_neg hpath] at hlocate
  rw [if_neg (Path.join_ne_empty hname hpath), Path.isAbsolute_join hname hpath,
    Path.names_join hname hpath]
  exact walk_concat hlocate hplace hname.ne_up

/-- A path that leads to a directory leads on to what is in it. -/
theorem find_join {path : String} (h : files.find path = .ok (place, .directory))
    (hname : Path.IsName name) (hnode : files.node? (place ++ [name]) = some node) :
    files.find (Path.join path name) = .ok (place ++ [name], node) := by
  unfold find
  rw [locate_join h hname, ok_bind, hnode,
    Path.not_asksForDirectory_join hname (ne_empty_of_find h)]
  cases node <;> rfl

theorem WellFormed.find_below (h : files.WellFormed) {path : String} {rel : List String}
    (hpath : files.find path = .ok (place, .directory)) (hrel : ∀ name ∈ rel, Path.IsName name)
    (hnode : files.node? (place ++ rel) = some node) :
    files.find (Path.below path rel) = .ok (place ++ rel, node) := by
  induction rel using List.reverseRecOn generalizing node with
  | nil =>
    rw [List.append_nil] at hnode ⊢
    obtain ⟨-, hdirectory⟩ := find_directory.1 hpath
    rw [Option.some.inj (hnode.symm.trans hdirectory)]
    exact hpath
  | append_singleton front name ih =>
    obtain ⟨hfront, hname⟩ := List.forall_mem_append.1 hrel
    rw [← List.append_assoc] at hnode ⊢
    have habove := h.directory_above (List.cons_ne_nil _ _) hnode
    rw [Path.below_concat]
    exact find_join (ih hfront habove) (List.forall_mem_singleton.1 hname) hnode

/-! ## What is in a directory -/

/-- What a place is to a directory that it is in: a name that leads to something. -/
def child? (place : Place) : Place × Node → Option (String × Node)
  | (p, node) =>
    match p.reverse with
    | last :: before =>
      if before.reverse = place ∧ last ≠ Path.root then some (last, node) else none
    | [] => none

theorem child?_eq_some {e : Place × Node} :
    child? place e = some (name, node) ↔ e = (place ++ [name], node) ∧ name ≠ Path.root := by
  obtain ⟨p, n⟩ := e
  unfold child?
  constructor
  · intro h
    dsimp only at h
    split at h
    · next last before hreverse =>
      split at h
      · next hlast =>
        cases h
        obtain ⟨rfl, hroot⟩ := hlast
        rw [← List.reverse_cons, ← hreverse, List.reverse_reverse]
        exact ⟨rfl, hroot⟩
      · cases h
    · cases h
  · rintro ⟨h, hroot⟩
    cases h
    simp [hroot]

/-- The names in a directory and what they lead to. -/
def children (place : Place) (files : Files) : List (String × Node) :=
  files.nodes.filterMap (child? place)

theorem list_eq_children {path : String} (h : files.find path = .ok (place, .directory)) :
    files.list path = .ok (files.children place) := by
  unfold list
  rw [h]
  rfl

theorem WellFormed.mem_children (h : files.WellFormed) :
    (name, node) ∈ files.children place ↔
      Path.IsName name ∧ files.node? (place ++ [name]) = some node := by
  have hmem : (name, node) ∈ files.children place ↔
      (place ++ [name], node) ∈ files.nodes ∧ name ≠ Path.root := by
    simp [children, List.mem_filterMap, child?_eq_some]
  rw [hmem]
  constructor
  · rintro ⟨hmem, -⟩
    obtain ⟨above, last, hplace, hlast, -⟩ := h.placed _ hmem
    obtain ⟨-, heq⟩ := List.append_inj' hplace rfl
    have hname : Path.IsName name := (List.cons.inj heq).1 ▸ hlast
    exact ⟨hname, (h.node?_concat hname).2 hmem⟩
  · rintro ⟨hname, hnode⟩
    exact ⟨(h.node?_concat hname).1 hnode, hname.ne_root⟩

theorem WellFormed.nodup_children (h : files.WellFormed) (place : Place) :
    ((files.children place).map (·.1)).Nodup := by
  unfold children
  rw [List.Nodup, List.pairwise_map, List.pairwise_filterMap]
  refine (List.pairwise_map.1 h.distinct).imp fun {a a'} hne e he e' he' heq => hne ?_
  rw [(child?_eq_some.1 he).1, (child?_eq_some.1 he').1]
  exact congrArg (place ++ [·]) heq

/-! ## Skill files -/

/-- The directories among the entries of a directory. -/
def subdirectories (entries : List (String × Node)) : List String :=
  entries.filterMap fun
    | (name, .directory) => some name
    | (_, .file _) => none

/-- The skill files among the entries of a directory, with what they hold. -/
def skillFiles (entries : List (String × Node)) : List (String × ByteArray) :=
  entries.filterMap fun
    | (_, .directory) => none
    | (name, .file bytes) => if SkillLibrary.isSkillName name then some (name, bytes) else none

theorem sift_eq (path : String) (entries : List (String × Node)) :
    SkillLibrary.sift path entries =
      ((subdirectories entries).map (Path.join path ·),
        (skillFiles entries).map (Path.join path ·.1)) := by
  induction entries with
  | nil => rfl
  | cons e rest ih =>
    obtain ⟨name, node⟩ := e
    rw [SkillLibrary.sift, ih]
    cases node with
    | directory => rfl
    | file bytes =>
      change (if SkillLibrary.isSkillName name then _ else _) = _
      split
      · next hskill => simp [skillFiles, subdirectories, hskill]
      · next hskill => simp [skillFiles, subdirectories, hskill]

theorem WellFormed.mem_subdirectories (h : files.WellFormed) :
    name ∈ subdirectories (files.children place) ↔
      Path.IsName name ∧ files.node? (place ++ [name]) = some .directory := by
  rw [← h.mem_children]
  unfold subdirectories
  rw [List.mem_filterMap]
  constructor
  · rintro ⟨⟨n, _ | bytes⟩, hmem, heq⟩ <;> cases heq
    exact hmem
  · exact fun hmem => ⟨_, hmem, rfl⟩

theorem WellFormed.nodup_subdirectories (h : files.WellFormed) (place : Place) :
    (subdirectories (files.children place)).Nodup := by
  unfold subdirectories
  rw [List.Nodup, List.pairwise_filterMap]
  refine (List.pairwise_map.1 (h.nodup_children place)).imp ?_
  rintro ⟨name, _ | _⟩ ⟨name', _ | _⟩ hne _ heq _ heq' <;> cases heq <;> cases heq'
  exact hne

theorem WellFormed.mem_skillFiles (h : files.WellFormed) {bytes : ByteArray} :
    (name, bytes) ∈ skillFiles (files.children place) ↔ Path.IsName name ∧
      SkillLibrary.isSkillName name ∧ files.node? (place ++ [name]) = some (.file bytes) := by
  rw [and_left_comm, ← h.mem_children]
  unfold skillFiles
  rw [List.mem_filterMap]
  constructor
  · rintro ⟨⟨n, _ | b⟩, hmem, heq⟩
    · cases heq
    · obtain ⟨hskill, heq⟩ := Option.ite_none_right_eq_some.1 heq
      cases heq
      exact ⟨hskill, hmem⟩
  · exact fun ⟨hskill, hmem⟩ => ⟨_, hmem, if_pos hskill⟩

theorem WellFormed.nodup_skillFiles (h : files.WellFormed) (place : Place) :
    (skillFiles (files.children place)).Nodup := by
  unfold skillFiles
  rw [List.Nodup, List.pairwise_filterMap]
  refine (List.pairwise_map.1 (h.nodup_children place)).imp ?_
  rintro ⟨name, _ | bytes⟩ ⟨name', _ | bytes'⟩ hne e he e' he' heq
  · cases he
  · cases he
  · cases he'
  · obtain ⟨-, he⟩ := Option.ite_none_right_eq_some.1 he
    obtain ⟨-, he'⟩ := Option.ite_none_right_eq_some.1 he'
    cases he
    cases he'
    exact hne (Prod.mk.inj heq).1

/-! ## Skill files below a directory -/

/-- Names that lead from a directory to a skill file below it. -/
def IsSkillPath (rel : List String) : Prop :=
  rel.head? ≠ some Path.root ∧ rel.getLast?.any SkillLibrary.isSkillName

instance (rel : List String) : Decidable (IsSkillPath rel) := inferInstanceAs (Decidable (_ ∧ _))

/-- What a place is to a directory that it is below: names that lead to a skill file, and what it
holds. -/
def skill? (base : Place) : Place × Node → Option (List String × ByteArray)
  | (_, .directory) => none
  | (place, .file bytes) => (place.dropPrefix? base).bind fun rel =>
    if IsSkillPath rel then some (rel, bytes) else none

theorem skill?_eq_some {base : Place} {e : Place × Node} {rel : List String} {bytes : ByteArray} :
    skill? base e = some (rel, bytes) ↔ e = (base ++ rel, .file bytes) ∧ IsSkillPath rel := by
  obtain ⟨p, _ | b⟩ := e
  · exact ⟨nofun, fun h => nomatch h.1⟩
  · unfold skill?
    simp only [Option.bind_eq_some_iff, List.dropPrefix?_eq_some_iff, beq_iff_eq,
      Option.ite_none_right_eq_some, Option.some.injEq, Prod.mk.injEq, Node.file.injEq]
    constructor
    · rintro ⟨_, ⟨_, rfl, rfl⟩, hskill, rfl, rfl⟩
      exact ⟨⟨rfl, rfl⟩, hskill⟩
    · rintro ⟨⟨rfl, rfl⟩, hskill⟩
      exact ⟨_, ⟨_, rfl, rfl⟩, hskill, rfl, rfl⟩

/-- The skill files below a directory: the names that lead to them from there, and what they hold. -/
def skillsBelow (base : Place) (files : Files) : List (List String × ByteArray) :=
  files.nodes.filterMap (skill? base)

theorem nodup_skillsBelow (h : files.WellFormed) (base : Place) : (files.skillsBelow base).Nodup := by
  unfold skillsBelow
  rw [List.Nodup, List.pairwise_filterMap]
  refine (List.pairwise_map.1 h.distinct).imp fun {a a'} hne e he e' he' heq => hne ?_
  rw [(skill?_eq_some.1 he).1, (skill?_eq_some.1 he').1, heq]

namespace WellFormed

variable {rel : List String} {bytes : ByteArray}

theorem mem_skillsBelow (h : files.WellFormed) : (rel, bytes) ∈ files.skillsBelow place ↔
    files.node? (place ++ rel) = some (.file bytes) ∧ IsSkillPath rel := by
  have hmem : (rel, bytes) ∈ files.skillsBelow place ↔
      (place ++ rel, .file bytes) ∈ files.nodes ∧ IsSkillPath rel := by
    simp [skillsBelow, List.mem_filterMap, skill?_eq_some]
  rw [hmem]
  refine and_congr_left fun _ => ⟨fun hfile => ?_, fun hfile => ?_⟩
  · exact (h.node?_eq_some_iff (h.not_isTop hfile)).2 hfile
  · have htop : ¬IsTop (place ++ rel) := fun htop => by
      rw [node?_of_isTop htop] at hfile
      cases hfile
    exact (h.node?_eq_some_iff htop).1 hfile

theorem isName_of_skillsBelow (h : files.WellFormed) (hmem : (rel, bytes) ∈ files.skillsBelow place) :
    ∀ name ∈ rel, Path.IsName name :=
  h.isName_below (h.mem_skillsBelow.1 hmem).2.1 (h.mem_skillsBelow.1 hmem).1

/-- The skill files below a directory are those in it and those below the directories in it. -/
theorem mem_skillsBelow_iff (h : files.WellFormed) : (rel, bytes) ∈ files.skillsBelow place ↔
    (∃ name, rel = [name] ∧ (name, bytes) ∈ skillFiles (files.children place)) ∨
      ∃ name more, rel = name :: more ∧ name ∈ subdirectories (files.children place) ∧
        (more, bytes) ∈ files.skillsBelow (place ++ [name]) := by
  constructor
  · intro hmem
    have hnames := h.isName_of_skillsBelow hmem
    obtain ⟨hfile, hfirst, hlast⟩ := h.mem_skillsBelow.1 hmem
    match rel with
    | [] => cases hlast
    | [name] =>
      exact .inl ⟨name, rfl, h.mem_skillFiles.2 ⟨hnames name List.mem_cons_self, hlast, hfile⟩⟩
    | name :: next :: more =>
      obtain ⟨hname, hmore⟩ := List.forall_mem_cons.1 hnames
      have hsplit : place ++ name :: next :: more = place ++ [name] ++ next :: more := by simp
      rw [hsplit] at hfile
      have hdirectory := h.directory_above (List.cons_ne_nil _ _) hfile
      have hnext : next ≠ Path.root := (hmore next List.mem_cons_self).ne_root
      exact .inr ⟨name, _, rfl, h.mem_subdirectories.2 ⟨hname, hdirectory⟩,
        h.mem_skillsBelow.2 ⟨hfile, by simpa using hnext, hlast⟩⟩
  · rintro (⟨name, rfl, hmem⟩ | ⟨name, more, rfl, hname, hmem⟩)
    · obtain ⟨hname, hskill, hfile⟩ := h.mem_skillFiles.1 hmem
      exact h.mem_skillsBelow.2 ⟨hfile, by simpa using hname.ne_root, hskill⟩
    · obtain ⟨hname, -⟩ := h.mem_subdirectories.1 hname
      obtain ⟨hfile, -, hlast⟩ := h.mem_skillsBelow.1 hmem
      have hsplit : place ++ name :: more = place ++ [name] ++ more := by simp
      have hlast' : (name :: more).getLast?.any SkillLibrary.isSkillName = true := by
        cases more with
        | nil => cases hlast
        | cons next more => exact hlast
      exact h.mem_skillsBelow.2 ⟨hsplit ▸ hfile, by simpa using hname.ne_root, hlast'⟩

end WellFormed

end Files

end Deskhand
