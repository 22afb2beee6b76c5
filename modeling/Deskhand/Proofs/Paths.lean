import Mathlib.Data.List.Basic
import Deskhand.Skill.Library
import Deskhand.World.Path

/-!
# Paths below a directory

A path grows by one name at a time (`Path.below`), and its names and parts grow with it, whether the
path it grows from ends with a slash or not (`Path.names_below`, `Path.parts_below`). The key of a
skill file is made of the names that lead to it from the directory it is loaded from
(`SkillLibrary.keyBelow_below`), and has no slash at its ends (`SkillLibrary.trimMatches_keyOf`).
-/

namespace Deskhand

/-! ## Cutting at one character -/

namespace Text

theorem piecesFrom_append (sep : Char) (piece a b : List Char) :
    piecesFrom [sep] piece 0 (a ++ sep :: b) =
      piecesFrom [sep] piece 0 a ++ piecesFrom [sep] [] 0 b := by
  induction a generalizing piece with
  | nil => simp [piecesFrom]
  | cons c a ih =>
    by_cases hc : c = sep
    · subst hc
      simpa [piecesFrom] using ih []
    · simpa [piecesFrom, Ne.symm hc] using ih (c :: piece)

theorem piecesFrom_of_notMem {sep : Char} {a : List Char} (h : sep ∉ a) (piece : List Char) :
    piecesFrom [sep] piece 0 a = [piece.reverse ++ a] := by
  induction a generalizing piece with
  | nil => simp [piecesFrom]
  | cons c a ih =>
    obtain ⟨hc, ha⟩ := List.ne_and_not_mem_of_not_mem_cons h
    simpa [piecesFrom, hc] using ih ha (c :: piece)

theorem piecesFrom_plain {piece cs : List Char} (hpiece : '/' ∉ piece) :
    ∀ p ∈ piecesFrom ['/'] piece 0 cs, '/' ∉ p := by
  induction cs generalizing piece with
  | nil => simpa [piecesFrom] using hpiece
  | cons c cs ih =>
    by_cases hc : c = '/'
    · subst hc
      simpa [piecesFrom, hpiece] using ih List.not_mem_nil
    · have hnext : '/' ∉ c :: piece := List.not_mem_cons_of_ne_of_not_mem (Ne.symm hc) hpiece
      simpa [piecesFrom, Ne.symm hc] using ih hnext

theorem split_append (a b : String) :
    split Path.root (a ++ Path.root ++ b) = split Path.root a ++ split Path.root b := by
  have hroot : Path.root.toList = ['/'] := rfl
  have hlist : (a ++ Path.root ++ b).toList = a.toList ++ '/' :: b.toList := by
    simp [String.toList_append, hroot]
  simp only [split, pieces, hlist, hroot, if_neg (List.cons_ne_nil '/' []), piecesFrom_append,
    List.map_append]

theorem split_of_notMem {a : String} (h : '/' ∉ a.toList) : split Path.root a = [a] := by
  have hroot : Path.root.toList = ['/'] := rfl
  simp only [split, pieces, hroot, if_neg (List.cons_ne_nil '/' []), piecesFrom_of_notMem h,
    List.reverse_nil, List.nil_append, List.map_cons, List.map_nil, String.ofList_toList]

theorem split_append_root (a : String) :
    split Path.root (a ++ Path.root) = split Path.root a ++ [""] := by
  have hcut := split_append a ""
  rwa [String.append_empty] at hcut

theorem split_ne_nil (a : String) : split Path.root a ≠ [] := by
  have hroot : Path.root.toList = ['/'] := rfl
  have hpieces : ∀ piece a, piecesFrom ['/'] piece 0 a ≠ [] := by
    intro piece a
    induction a generalizing piece with
    | nil => simp [piecesFrom]
    | cons c a ih =>
      by_cases hc : c = '/'
      · simp [piecesFrom, hc]
      · simpa [piecesFrom, Ne.symm hc] using ih (c :: piece)
  simpa [split, pieces, hroot] using hpieces [] a.toList

/-- A text without slashes at its ends stays as it is when they are taken away. -/
theorem trimMatches_eq_self {c : Char} {s : String} (hfirst : s.toList.head? ≠ some c)
    (hlast : s.toList.getLast? ≠ some c) : trimMatches c s = s := by
  have hdrop : ∀ l : List Char, l.head? ≠ some c → l.dropWhile (· == c) = l := by
    intro l hl
    cases l with
    | nil => rfl
    | cons a l =>
      have ha : ¬(a == c) = true := by simpa using hl
      exact List.dropWhile_cons_of_neg ha
  unfold trimMatches
  rw [hdrop _ hfirst, hdrop _ (by rwa [List.head?_reverse]), List.reverse_reverse,
    String.ofList_toList]

end Text

namespace Path

/-! ## Names -/

/-- A part of a path that leads from a directory to something in it. -/
structure IsName (name : String) : Prop where
  ne_empty : name ≠ ""
  ne_dot : name ≠ "."
  ne_up : name ≠ ".."
  no_slash : '/' ∉ name.toList

instance (name : String) : Decidable (IsName name) :=
  decidable_of_iff (name ≠ "" ∧ name ≠ "." ∧ name ≠ ".." ∧ '/' ∉ name.toList)
    ⟨fun ⟨h₁, h₂, h₃, h₄⟩ => ⟨h₁, h₂, h₃, h₄⟩, fun ⟨h₁, h₂, h₃, h₄⟩ => ⟨h₁, h₂, h₃, h₄⟩⟩

theorem IsName.ne_root {name : String} (h : IsName name) : name ≠ root := by
  rintro rfl
  exact h.no_slash (by decide)

theorem IsName.toList_ne_nil {name : String} (h : IsName name) : name.toList ≠ [] :=
  fun hnil => h.ne_empty (String.toList_eq_nil_iff.1 hnil)

theorem IsName.not_isAbsolute {name : String} (h : IsName name) : isAbsolute name = false := by
  refine Bool.eq_false_iff.2 fun habsolute => h.no_slash ?_
  obtain ⟨rest, hrest⟩ := List.isPrefixOf_iff_prefix.1 habsolute
  rw [← hrest]
  exact List.mem_cons_self

theorem isName_of_names {path name : String} (h : name ∈ names path) (hup : name ≠ "..") :
    IsName name := by
  obtain ⟨hmem, hplain⟩ := List.mem_filter.1 h
  obtain ⟨hempty, hdot⟩ := of_decide_eq_true hplain
  obtain ⟨piece, hpiece, rfl⟩ := List.mem_map.1 hmem
  refine ⟨hempty, hdot, hup, ?_⟩
  rw [String.toList_ofList]
  exact Text.piecesFrom_plain List.not_mem_nil piece hpiece

/-! ## One name more -/

variable {base name : String}

/-- A name goes behind a path with a slash between them, which may be there already. -/
theorem join_cases (hname : IsName name) (hbase : base ≠ "") :
    ∃ a, join base name = a ++ root ++ name ∧ (base = a ∨ base = a ++ root) := by
  unfold join
  rw [hname.not_isAbsolute]
  by_cases hends : asksForDirectory base = true
  · obtain ⟨a, ha⟩ := List.isSuffixOf_iff_suffix.1 hends
    have hcut : base = String.ofList a ++ root := by
      rw [← String.toList_inj, String.toList_append, String.toList_ofList, ha]
    exact ⟨String.ofList a, by simp [hends, ← hcut], .inr hcut⟩
  · exact ⟨base, by simp [hends, hbase, root], .inl rfl⟩

theorem join_ne_empty (hname : IsName name) (hbase : base ≠ "") : join base name ≠ "" := by
  obtain ⟨a, hjoin, -⟩ := join_cases hname hbase
  rw [hjoin]
  intro hempty
  exact hname.ne_empty (String.append_eq_empty_iff.1 hempty).2

theorem names_join (hname : IsName name) (hbase : base ≠ "") :
    names (join base name) = names base ++ [name] := by
  obtain ⟨a, hjoin, rfl | rfl⟩ := join_cases hname hbase
  · simp [names, hjoin, Text.split_append, Text.split_of_notMem hname.no_slash, hname.ne_empty,
      hname.ne_dot]
  · simp [names, hjoin, Text.split_append_root, Text.split_append,
      Text.split_of_notMem hname.no_slash, hname.ne_empty, hname.ne_dot]

theorem isAbsolute_append {a : String} (ha : a ≠ "") (b : String) :
    isAbsolute (a ++ b) = isAbsolute a := by
  have hroot : root.toList = ['/'] := rfl
  unfold isAbsolute Text.startsWith
  rw [String.toList_append, hroot]
  cases h : a.toList with
  | nil => exact absurd (String.toList_eq_nil_iff.1 h) ha
  | cons c rest => simp [List.isPrefixOf]

theorem isAbsolute_join (hname : IsName name) (hbase : base ≠ "") :
    isAbsolute (join base name) = isAbsolute base := by
  obtain ⟨a, hjoin, rfl | rfl⟩ := join_cases hname hbase
  · rw [hjoin, String.append_assoc, isAbsolute_append hbase]
  · rw [hjoin, isAbsolute_append hbase]

theorem parts_join (hname : IsName name) (hbase : base ≠ "") :
    parts (join base name) = parts base ++ [name] := by
  have hhead : (Text.split root (join base name)).head? = (Text.split root base).head? := by
    obtain ⟨a, hjoin, rfl | rfl⟩ := join_cases hname hbase
    · rw [hjoin, Text.split_append, List.head?_append_of_ne_nil _ (Text.split_ne_nil _)]
    · rw [hjoin, Text.split_append_root, Text.split_append,
        List.head?_append_of_ne_nil _ (Text.split_ne_nil _),
        List.head?_append_of_ne_nil _ (Text.split_ne_nil _)]
  unfold parts
  rw [isAbsolute_join hname hbase, hhead, names_join hname hbase]
  split
  · rfl
  · split <;> rfl

theorem not_asksForDirectory_join (hname : IsName name) (hbase : base ≠ "") :
    asksForDirectory (join base name) = false := by
  obtain ⟨a, hjoin, -⟩ := join_cases hname hbase
  refine Bool.eq_false_iff.2 fun hends => hname.no_slash ?_
  obtain ⟨front, hfront⟩ := List.isSuffixOf_iff_suffix.1 hends
  have hslash : name.toList.getLast? = some '/' := by
    rw [← List.getLast?_append_of_ne_nil (a ++ root).toList hname.toList_ne_nil,
      ← String.toList_append, ← hjoin, ← hfront]
    exact List.getLast?_concat
  exact List.mem_of_getLast? hslash

/-! ## All names that lead below a directory -/

/-- The path that one gets to from another by names. -/
def below (base : String) (names : List String) : String := names.foldl join base

theorem below_cons (base name : String) (names : List String) :
    below base (name :: names) = below (join base name) names := rfl

theorem below_append (base : String) (names more : List String) :
    below base (names ++ more) = below (below base names) more := List.foldl_append

theorem below_concat (base : String) (names : List String) (name : String) :
    below base (names ++ [name]) = join (below base names) name := by rw [below_append]; rfl

variable {rel : List String}

theorem names_below (hrel : ∀ name ∈ rel, IsName name) (hbase : base ≠ "") :
    names (below base rel) = names base ++ rel := by
  induction rel generalizing base with
  | nil => simp [below]
  | cons name rel ih =>
    obtain ⟨hname, hrel⟩ := List.forall_mem_cons.1 hrel
    rw [below_cons, ih hrel (join_ne_empty hname hbase), names_join hname hbase, List.append_assoc]
    rfl

theorem parts_below (hrel : ∀ name ∈ rel, IsName name) (hbase : base ≠ "") :
    parts (below base rel) = parts base ++ rel := by
  induction rel generalizing base with
  | nil => simp [below]
  | cons name rel ih =>
    obtain ⟨hname, hrel⟩ := List.forall_mem_cons.1 hrel
    rw [below_cons, ih hrel (join_ne_empty hname hbase), parts_join hname hbase, List.append_assoc]
    rfl

/-! ## Stems -/

/-- What is left of a name without its extension is a part of the name. -/
theorem stem_of_extension {extension : String} (h : (splitName name).2 = some extension) :
    (splitName name).1 ≠ "" ∧ ∀ c ∈ (splitName name).1.toList, c ∈ name.toList := by
  unfold splitName at h ⊢
  dsimp only at h ⊢
  split at h
  · cases h
  · cases h
  · next c stem hstem hcut =>
    have hsuffix : c :: stem <:+ name.toList.reverse := hcut ▸ List.dropWhile_suffix _
    dsimp only
    refine ⟨fun hempty => hstem ?_, fun d hd => ?_⟩
    · rw [String.ofList_eq_empty_iff] at hempty
      exact List.reverse_eq_nil_iff.1 hempty
    · rw [String.toList_ofList, List.mem_reverse] at hd
      exact List.mem_reverse.1 (hsuffix.subset (List.mem_cons_of_mem _ hd))

end Path

namespace SkillLibrary

/-- The name of a skill file, from the names that lead to it. -/
def keyOf (rel : List String) : String := Path.ofParts (keyParts rel)

theorem keyBelow_below {root : String} {rel : List String} (hrel : ∀ name ∈ rel, Path.IsName name)
    (hroot : root ≠ "") : keyBelow root (Path.below root rel) = keyOf rel := by
  unfold keyBelow keyOf
  rw [Path.parts_below hrel hroot, List.drop_left]

/-- Texts with something between slashes have no slash at their ends if none of them has. -/
theorem noSlash_intercalate {parts : List String} (hparts : parts ≠ [])
    (hplain : ∀ part ∈ parts, part ≠ "" ∧ '/' ∉ part.toList) :
    ("/".intercalate parts).toList.head? ≠ some '/' ∧
      ("/".intercalate parts).toList.getLast? ≠ some '/' := by
  rw [String.toList_intercalate]
  induction parts with
  | nil => exact absurd rfl hparts
  | cons part rest ih =>
    obtain ⟨⟨hempty, hslash⟩, hrest⟩ := List.forall_mem_cons.1 hplain
    have hne : part.toList ≠ [] := fun hnil => hempty (String.toList_eq_nil_iff.1 hnil)
    have hfirst : part.toList.head? ≠ some '/' := fun h => hslash (List.mem_of_head? h)
    cases rest with
    | nil =>
      rw [List.map_cons, List.map_nil, List.intercalate_singleton]
      exact ⟨hfirst, fun h => hslash (List.mem_of_getLast? h)⟩
    | cons next rest =>
      obtain ⟨hnext, -⟩ := List.forall_mem_cons.1 hrest
      have hlast := (ih (List.cons_ne_nil _ _) hrest).2
      rw [List.map_cons, List.map_cons, List.intercalate_cons_cons, List.append_assoc]
      rw [List.map_cons] at hlast
      refine ⟨by rwa [List.head?_append_of_ne_nil _ hne], ?_⟩
      have htail : "/".toList.intercalate (next.toList :: rest.map String.toList) ≠ [] := by
        cases rest with
        | nil => simpa [List.intercalate_singleton] using hnext.1
        | cons last rest => simp [List.intercalate_cons_cons]
      rwa [List.getLast?_append_of_ne_nil _ (List.append_ne_nil_of_right_ne_nil _ htail),
        List.getLast?_append_of_ne_nil _ htail]

/-- A file of this name is a skill file. -/
def isSkillName (name : String) : Bool := (Path.splitName name).2.any (extensions.contains ·)

theorem plain_keyParts {rel : List String} {name : String} (hrel : ∀ part ∈ rel, Path.IsName part)
    (hname : Path.IsName name) (hskill : isSkillName name) :
    keyParts (rel ++ [name]) ≠ [] ∧
      ∀ part ∈ keyParts (rel ++ [name]), part ≠ "" ∧ '/' ∉ part.toList := by
  obtain ⟨extension, hextension⟩ : ∃ extension, (Path.splitName name).2 = some extension := by
    unfold isSkillName at hskill
    cases h : (Path.splitName name).2 with
    | none => rw [h] at hskill; cases hskill
    | some extension => exact ⟨extension, rfl⟩
  obtain ⟨hstem, hchars⟩ := Path.stem_of_extension hextension
  have hplain : ∀ part ∈ rel, part ≠ "" ∧ '/' ∉ part.toList :=
    fun part hpart => ⟨(hrel part hpart).ne_empty, (hrel part hpart).no_slash⟩
  simp only [keyParts, List.reverse_append, List.reverse_cons, List.reverse_nil, List.nil_append,
    List.singleton_append, List.reverse_reverse]
  split
  · next hdot => exact ⟨fun hnil => hdot.2 (by rw [hnil]; rfl), hplain⟩
  · refine ⟨by simp, fun part hpart => ?_⟩
    rcases List.mem_append.1 hpart with hpart | hpart
    · exact hplain part hpart
    · rw [List.mem_singleton.1 hpart]
      exact ⟨hstem, fun hslash => hname.no_slash (hchars _ hslash)⟩

/-- The name of a skill file has no slash at its ends, so that it is looked up as it is. -/
theorem trimMatches_keyOf {rel : List String} {name : String}
    (hrel : ∀ part ∈ rel, Path.IsName part) (hname : Path.IsName name) (hskill : isSkillName name) :
    Text.trimMatches '/' (keyOf (rel ++ [name])) = keyOf (rel ++ [name]) := by
  obtain ⟨hne, hplain⟩ := plain_keyParts hrel hname hskill
  have hkey : keyOf (rel ++ [name]) = "/".intercalate (keyParts (rel ++ [name])) := by
    unfold keyOf
    cases hparts : keyParts (rel ++ [name]) with
    | nil => rfl
    | cons first rest =>
      have hfirst : first ≠ Path.root := by
        rintro rfl
        exact (hplain Path.root (hparts ▸ List.mem_cons_self)).2 (by decide)
      exact if_neg hfirst
  obtain ⟨hfirst, hlast⟩ := noSlash_intercalate hne hplain
  rw [hkey]
  exact Text.trimMatches_eq_self hfirst hlast

end SkillLibrary

end Deskhand
