import Mathlib.Data.List.Count
import Mathlib.Data.List.Infix
import Mathlib.Data.List.Nodup
import Deskhand.Proofs.Trees

/-!
# Searching a directory

Searching a directory goes on until no directory below it is left (`Searches`): no directory is
searched twice, since the ones that are left to be searched lie apart from each other (`Apart`), so
the bound on how many are searched is never reached (`loadPending_eq`). What is found is every skill
file below the directory, once (`Searches.perm`), in an order that depends on that of the tree.
-/

namespace Deskhand.SkillLibrary

open Files (subdirectories skillFiles)

variable {files : Files} {base : Place} {rel : List String} {pending : List (List String)}
  {found : List (List String × ByteArray)} {bytes : ByteArray}

/-! ## What is found -/

/-- The directories that are left when the one at `rel` has been searched, given those that were left
before. -/
def left (files : Files) (base : Place) (rel : List String) (pending : List (List String)) :
    List (List String) :=
  ((subdirectories (files.children (base ++ rel))).map (rel ++ [·])).reverse ++ pending

/-- The skill files in the directory at `rel`. -/
def foundAt (files : Files) (base : Place) (rel : List String) : List (List String × ByteArray) :=
  (skillFiles (files.children (base ++ rel))).map fun e => (rel ++ [e.1], e.2)

/-- Searching directories below a base finds these skill files; they are given by the names that lead
to them from the base. -/
inductive Searches (files : Files) (base : Place) :
    List (List String) → List (List String × ByteArray) → Prop
  | done : Searches files base [] []
  | next {rel : List String} {pending : List (List String)}
    {found : List (List String × ByteArray)}
    (rest : Searches files base (left files base rel pending) found) :
    Searches files base (rel :: pending) (foundAt files base rel ++ found)

theorem mem_left {at_ : List String} : at_ ∈ left files base rel pending ↔
    (∃ name ∈ subdirectories (files.children (base ++ rel)), at_ = rel ++ [name]) ∨
      at_ ∈ pending := by
  simp [left, eq_comm]

theorem mem_foundAt {path : List String} : (path, bytes) ∈ foundAt files base rel ↔
    ∃ name, path = rel ++ [name] ∧ (name, bytes) ∈ skillFiles (files.children (base ++ rel)) := by
  simp only [foundAt, List.mem_map, Prod.exists, Prod.mk.injEq]
  constructor
  · rintro ⟨name, _, hmem, rfl, rfl⟩
    exact ⟨name, rfl, hmem⟩
  · rintro ⟨name, rfl, hmem⟩
    exact ⟨name, _, hmem, rfl, rfl⟩

/-- What is found are the skill files below the directories that are left. -/
theorem Searches.mem_iff (hformed : files.WellFormed) (h : Searches files base pending found)
    {path : List String} : (path, bytes) ∈ found ↔ ∃ rel ∈ pending, ∃ more, path = rel ++ more ∧
      (more, bytes) ∈ files.skillsBelow (base ++ rel) := by
  induction h with
  | done => simp
  | @next rel pending found _ ih =>
    rw [List.mem_append, mem_foundAt, ih]
    constructor
    · rintro (⟨name, rfl, hmem⟩ | ⟨at_, hat, more, rfl, hmem⟩)
      · exact ⟨rel, List.mem_cons_self, [name], rfl,
          hformed.mem_skillsBelow_iff.2 (.inl ⟨name, rfl, hmem⟩)⟩
      · rcases mem_left.1 hat with ⟨name, hname, rfl⟩ | hat
        · rw [← List.append_assoc] at hmem
          exact ⟨rel, List.mem_cons_self, name :: more, List.append_assoc _ _ _,
            hformed.mem_skillsBelow_iff.2 (.inr ⟨name, more, rfl, hname, hmem⟩)⟩
        · exact ⟨at_, List.mem_cons_of_mem _ hat, more, rfl, hmem⟩
    · rintro ⟨at_, hat, more, rfl, hmem⟩
      rcases List.mem_cons.1 hat with rfl | hat
      · rcases hformed.mem_skillsBelow_iff.1 hmem with
          ⟨name, rfl, hfile⟩ | ⟨name, more, rfl, hname, hfile⟩
        · exact .inl ⟨name, rfl, hfile⟩
        · rw [List.append_assoc] at hfile
          exact .inr ⟨at_ ++ [name], mem_left.2 (.inl ⟨name, hname, rfl⟩), more, by simp, hfile⟩
      · exact .inr ⟨at_, mem_left.2 (.inr hat), more, rfl, hmem⟩

/-! ## Nothing is found twice -/

/-- No directory is another one or above it. -/
def Apart (pending : List (List String)) : Prop :=
  pending.Pairwise fun a b => ¬a <+: b ∧ ¬b <+: a

theorem Apart.next (hformed : files.WellFormed) (h : Apart (rel :: pending)) :
    Apart (left files base rel pending) := by
  obtain ⟨hrel, hpending⟩ := List.pairwise_cons.1 h
  refine List.pairwise_append.2 ⟨?_, hpending, ?_⟩
  · rw [List.pairwise_reverse, List.pairwise_map]
    refine (hformed.nodup_subdirectories (base ++ rel)).imp fun {a b} hne => ?_
    simpa [List.prefix_append_right_inj, List.cons_prefix_cons] using ⟨hne.symm, hne⟩
  · intro a ha b hb
    obtain ⟨name, -, rfl⟩ := List.mem_map.1 (List.mem_reverse.1 ha)
    obtain ⟨hrel, hb⟩ := hrel b hb
    refine ⟨fun hprefix => hrel ((List.prefix_append _ _).trans hprefix), fun hprefix => ?_⟩
    rcases List.prefix_concat_iff.1 hprefix with rfl | hprefix
    · exact hrel (List.prefix_append _ _)
    · exact hb hprefix

theorem nodup_foundAt (hformed : files.WellFormed) (base : Place) (rel : List String) :
    (foundAt files base rel).Nodup := by
  refine (hformed.nodup_skillFiles (base ++ rel)).map fun a b heq => ?_
  obtain ⟨hname, hbytes⟩ := Prod.mk.inj heq
  exact Prod.ext (by simpa using hname) hbytes

theorem Searches.nodup (hformed : files.WellFormed) (h : Searches files base pending found)
    (hapart : Apart pending) : found.Nodup := by
  induction h with
  | done => exact .nil
  | @next rel pending found rest ih =>
    refine List.nodup_append.2 ⟨nodup_foundAt hformed base rel, ih (hapart.next hformed), ?_⟩
    rintro ⟨path, bytes⟩ hat _ hbelow rfl
    obtain ⟨name, rfl, -⟩ := mem_foundAt.1 hat
    obtain ⟨at_, hat_, more, hpath, hmem⟩ := (rest.mem_iff hformed).1 hbelow
    have hmore : more ≠ [] := by
      rintro rfl
      exact absurd (hformed.mem_skillsBelow.1 hmem).2.2 (by decide)
    rcases mem_left.1 hat_ with ⟨sub, -, rfl⟩ | hat_
    · -- what is in a directory is not below one in it
      have hlength := congrArg List.length hpath
      have hpos := List.length_pos_iff.2 hmore
      simp only [List.length_append, List.length_singleton] at hlength
      omega
    · refine ((List.pairwise_cons.1 hapart).1 at_ hat_).2 ?_
      rcases List.prefix_concat_iff.1 ⟨more, hpath.symm⟩ with heq | hprefix
      · rw [heq] at hpath
        exact absurd (List.append_right_eq_self.1 hpath.symm) hmore
      · exact hprefix

/-- Searching a directory finds every skill file below it once. -/
theorem Searches.perm (hformed : files.WellFormed) (h : Searches files base [[]] found) :
    found.Perm (files.skillsBelow base) := by
  have hnodup := h.nodup hformed (List.pairwise_singleton _ _)
  refine (List.perm_ext_iff_of_nodup hnodup (Files.nodup_skillsBelow hformed base)).2 ?_
  rintro ⟨path, bytes⟩
  rw [h.mem_iff hformed]
  constructor
  · rintro ⟨rel, hrel, more, rfl, hmem⟩
    rw [List.mem_singleton.1 hrel, List.append_nil] at hmem
    rwa [List.mem_singleton.1 hrel]
  · exact fun hmem => ⟨[], List.mem_singleton_self _, path, rfl, by rwa [List.append_nil]⟩

/-! ## The bound is never reached -/

/-- How many directories there are at or below those that are left. -/
def searchable (files : Files) (base : Place) (pending : List (List String)) : Nat :=
  files.nodes.countP fun e =>
    e.2.isDirectory && pending.any fun rel => (base ++ rel).isPrefixOf e.1

theorem countP_lt_countP {α : Type} {p q : α → Bool} {l : List α} (himp : ∀ x, q x → p x) {a : α}
    (ha : a ∈ l) (hp : p a) (hq : q a = false) : l.countP q < l.countP p := by
  have hboth : l.countP q = (l.filter p).countP q := by
    rw [List.countP_filter]
    refine List.countP_congr fun x _ => ?_
    simpa using himp x
  rw [hboth, List.countP_eq_length_filter (l := l)]
  exact List.countP_lt_length_iff.2 ⟨a, List.mem_filter.2 ⟨ha, hp⟩, hq⟩

/-- A directory that has been searched is not searched again. -/
theorem searchable_left_lt (hapart : Apart (rel :: pending))
    (hrel : (base ++ rel, .directory) ∈ files.nodes) :
    searchable files base (left files base rel pending) <
      searchable files base (rel :: pending) := by
  refine countP_lt_countP (fun e he => ?_) hrel (by simp [Node.isDirectory]) ?_
  · obtain ⟨hdirectory, hany⟩ := (Bool.and_eq_true _ _).mp he
    obtain ⟨at_, hat, hprefix⟩ := List.any_eq_true.1 hany
    refine (Bool.and_eq_true _ _).mpr ⟨hdirectory, List.any_eq_true.2 ?_⟩
    rcases mem_left.1 hat with ⟨name, -, rfl⟩ | hat
    · refine ⟨rel, List.mem_cons_self, ?_⟩
      rw [List.isPrefixOf_iff_prefix, ← List.append_assoc] at *
      exact (List.prefix_append _ _).trans hprefix
    · exact ⟨at_, List.mem_cons_of_mem _ hat, hprefix⟩
  · refine Bool.eq_false_iff.2 fun h => ?_
    obtain ⟨at_, hat, hprefix⟩ := List.any_eq_true.1 ((Bool.and_eq_true _ _).mp h).2
    rw [List.isPrefixOf_iff_prefix, List.prefix_append_right_inj] at hprefix
    rcases mem_left.1 hat with ⟨name, -, rfl⟩ | hat
    · have hlength := hprefix.length_le
      rw [List.length_append, List.length_singleton] at hlength
      omega
    · exact ((List.pairwise_cons.1 hapart).1 at_ hat).2 hprefix

/-! ## Searching is loading what is found -/

theorem loadFiles_append (root : String) (files : Files) (paths more : List String)
    (library : SkillLibrary) : loadFiles root files (paths ++ more) library =
      loadFiles root files paths library >>= loadFiles root files more := by
  induction paths generalizing library with
  | nil => rfl
  | cons path rest ih =>
    rw [List.cons_append, loadFiles, loadFiles]
    cases files.read path with
    | error e => rfl
    | ok text =>
      dsimp only
      cases SkillDocument.parse (keyBelow root path) text with
      | error e => rfl
      | ok doc => exact ih _

/-- The paths of directories below a root. -/
def pathsOf (root : String) (rels : List (List String)) : List String := rels.map (Path.below root)

variable {root : String}

/-- Searching a directory is loading the skill files in it, and then searching what is left. -/
theorem loadPending_next (hat : files.find (Path.below root rel) = .ok (base ++ rel, .directory))
    (fuel : Nat) (library : SkillLibrary) :
    loadPending root files (fuel + 1) (pathsOf root (rel :: pending)) library =
      loadFiles root files (pathsOf root ((foundAt files base rel).map (·.1))) library >>=
        loadPending root files fuel (pathsOf root (left files base rel pending)) := by
  have hfound : (skillFiles (files.children (base ++ rel))).map (Path.join (Path.below root rel) ·.1) =
      pathsOf root ((foundAt files base rel).map (·.1)) := by
    simp [pathsOf, foundAt, Path.below_concat]
  have hleft : ((subdirectories (files.children (base ++ rel))).map
      (Path.join (Path.below root rel) ·)).reverse ++ pathsOf root pending =
        pathsOf root (left files base rel pending) := by
    simp [pathsOf, left, Path.below_concat, List.map_reverse]
  rw [← hfound, ← hleft, pathsOf, List.map_cons, loadPending, Files.list_eq_children hat]
  dsimp only
  rw [Files.sift_eq]
  rfl

/-- Searching directories loads the skill files that are found. -/
def Loads (root : String) (files : Files) (fuel : Nat) (pending : List (List String))
    (found : List (List String × ByteArray)) : Prop :=
  ∀ library, loadPending root files fuel (pathsOf root pending) library =
    loadFiles root files (pathsOf root (found.map (·.1))) library

theorem Loads.next {fuel : Nat}
    (hat : files.find (Path.below root rel) = .ok (base ++ rel, .directory))
    (h : Loads root files fuel (left files base rel pending) found) :
    Loads root files (fuel + 1) (rel :: pending) (foundAt files base rel ++ found) := by
  intro library
  have hpaths : pathsOf root ((foundAt files base rel ++ found).map (·.1)) =
      pathsOf root ((foundAt files base rel).map (·.1)) ++ pathsOf root (found.map (·.1)) := by
    simp [pathsOf]
  rw [loadPending_next hat, hpaths, loadFiles_append, funext h]

/-- Names that lead from a base to a directory in the tree. -/
def IsSearched (files : Files) (base : Place) (rel : List String) : Prop :=
  (∀ name ∈ rel, Path.IsName name) ∧ (base ++ rel, .directory) ∈ files.nodes

theorem isSearched_left (hformed : files.WellFormed) (hrel : ∀ name ∈ rel, Path.IsName name)
    (hpending : ∀ at_ ∈ pending, IsSearched files base at_) :
    ∀ at_ ∈ left files base rel pending, IsSearched files base at_ := by
  intro at_ hat
  rcases mem_left.1 hat with ⟨name, hname, rfl⟩ | hat
  · obtain ⟨hname, hnode⟩ := hformed.mem_subdirectories.1 hname
    refine ⟨List.forall_mem_append.2 ⟨hrel, List.forall_mem_singleton.2 hname⟩, ?_⟩
    rw [← List.append_assoc]
    exact (hformed.node?_concat hname).1 hnode
  · exact hpending at_ hat

theorem exists_loads (hformed : files.WellFormed) (hroot : files.find root = .ok (base, .directory))
    (fuel : Nat) (hpending : ∀ rel ∈ pending, IsSearched files base rel) (hapart : Apart pending)
    (hfuel : searchable files base pending ≤ fuel) :
    ∃ found, Searches files base pending found ∧ Loads root files fuel pending found := by
  induction fuel generalizing pending with
  | zero =>
    cases pending with
    | nil => exact ⟨[], .done, fun _ => rfl⟩
    | cons rel pending =>
      have hless := searchable_left_lt hapart (hpending rel List.mem_cons_self).2
      omega
  | succ fuel ih =>
    cases pending with
    | nil => exact ⟨[], .done, fun _ => rfl⟩
    | cons rel pending =>
      obtain ⟨⟨hnames, hrel⟩, hpending⟩ := List.forall_mem_cons.1 hpending
      have hless := searchable_left_lt hapart hrel
      obtain ⟨found, hsearches, hloads⟩ := ih (isSearched_left hformed hnames hpending)
        (hapart.next hformed) (by omega)
      have hat := hformed.find_below hroot hnames
        ((hformed.node?_eq_some_iff (hformed.not_isTop hrel)).2 hrel)
      exact ⟨_, .next hsearches, hloads.next hat⟩

/-- Loading a directory is loading all skill files below it, each once, in some order. -/
theorem load_eq_loadFiles (hformed : files.WellFormed)
    (hroot : files.find root = .ok (base, .directory)) :
    ∃ found : List (List String × ByteArray), found.Perm (files.skillsBelow base) ∧
      load root files = loadFiles root files (pathsOf root (found.map (·.1))) .empty := by
  have hnames : ∀ name ∈ ([] : List String), Path.IsName name := List.forall_mem_nil _
  obtain ⟨found, hsearches, hloads⟩ := exists_loads hformed hroot files.nodes.length
    (isSearched_left hformed hnames (List.forall_mem_nil _))
    (Apart.next hformed (List.pairwise_singleton _ _)) List.countP_le_length
  have hat : files.find (Path.below root []) = .ok (base ++ [], .directory) := by
    rwa [List.append_nil]
  exact ⟨_, (Searches.next hsearches).perm hformed, hloads.next hat .empty⟩

end Deskhand.SkillLibrary
