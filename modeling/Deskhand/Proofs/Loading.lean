import Mathlib
import Deskhand.Proofs.Gathering
import Deskhand.Proofs.Objects
import Deskhand.Proofs.Searching

/-!
# Loading a directory

Loading a directory binds the path of a skill file to the last document that was loaded from it, and
a title that is no path to the first document that has it (`get?_gather`). The order in which the
file system lists the files decides where there is more than one: what is bound to a name is the same
in every order if the files that bear it agree on it (`load_any_order`), and the names are the same
in any case. Two files with one title may be listed either way round (`not_load_any_order`).
-/

namespace Deskhand

theorem SkillDocument.name_of_ofValue {name : String} {v : Value} {doc : SkillDocument}
    (h : ofValue name v = .ok doc) : doc.name = name := by
  unfold ofValue at h
  split at h
  · obtain ⟨⟨header, steps⟩, -, h⟩ := bind_eq_ok h
    dsimp only at h
    split at h
    · cases h
    · cases h
      rfl
  · cases h

theorem SkillDocument.name_of_parse {name text : String} {doc : SkillDocument}
    (h : parse name text = .ok doc) : doc.name = name := by
  unfold parse at h
  split at h
  · exact name_of_ofValue h
  · cases h

/-- The document stands in the library under its title too. -/
def SkillDocument.Titled (doc : SkillDocument) (name : String) : Prop :=
  doc.header.name = name ∧ name ≠ ""

instance (doc : SkillDocument) (name : String) : Decidable (doc.Titled name) :=
  inferInstanceAs (Decidable (_ ∧ _))

/-- The document under another name. -/
def SkillDocument.renamed (doc : SkillDocument) (name : String) : SkillDocument := { doc with name }

namespace SkillLibrary

/-! ## The documents of skill files -/

/-- The document in a skill file, if it can be read and is valid. -/
def document? (file : List String × ByteArray) : Option SkillDocument :=
  (String.fromUTF8? file.2).bind fun text => (SkillDocument.parse (keyOf file.1) text).toOption

theorem document?_eq_some {file : List String × ByteArray} {doc : SkillDocument} :
    document? file = some doc ↔ ∃ text, String.fromUTF8? file.2 = some text ∧
      SkillDocument.parse (keyOf file.1) text = .ok doc := by
  unfold document?
  rw [Option.bind_eq_some_iff]
  refine exists_congr fun text => and_congr_right fun _ => ?_
  cases SkillDocument.parse (keyOf file.1) text with
  | error e => exact ⟨nofun, nofun⟩
  | ok found => simp [Except.toOption]

theorem name_of_document? {file : List String × ByteArray} {doc : SkillDocument}
    (h : document? file = some doc) : doc.name = keyOf file.1 := by
  obtain ⟨text, -, hparse⟩ := document?_eq_some.1 h
  exact SkillDocument.name_of_parse hparse

/-- Put loaded documents into a library one after another. -/
def gather (order : List SkillDocument) (library : SkillLibrary) : SkillLibrary :=
  order.foldl (fun library doc => library.insertLoaded doc) library

variable {files : Files} {base : Place} {root : String}

/-- Loading skill files that are all valid puts their documents into the library. -/
theorem loadFiles_eq (hformed : files.WellFormed) (hroot : files.find root = .ok (base, .directory))
    {found : List (List String × ByteArray)} (hfound : ∀ file ∈ found, file ∈ files.skillsBelow base)
    (hvalid : ∀ file ∈ found, (document? file).isSome) (library : SkillLibrary) :
    loadFiles root files (pathsOf root (found.map (·.1))) library =
      .ok (gather (found.filterMap document?) library) := by
  induction found generalizing library with
  | nil => rfl
  | cons file found ih =>
    obtain ⟨rel, bytes⟩ := file
    obtain ⟨hmem, hfound⟩ := List.forall_mem_cons.1 hfound
    obtain ⟨hdoc, hvalid⟩ := List.forall_mem_cons.1 hvalid
    obtain ⟨doc, hdoc⟩ := Option.isSome_iff_exists.1 hdoc
    obtain ⟨text, htext, hparse⟩ := document?_eq_some.1 hdoc
    have hnames := hformed.isName_of_skillsBelow hmem
    have hread : files.read (Path.below root rel) = .ok text := by
      unfold Files.read
      rw [hformed.find_below hroot hnames (hformed.mem_skillsBelow.1 hmem).1]
      dsimp only
      rw [htext]
    rw [pathsOf, List.map_cons, List.map_cons, loadFiles, hread]
    dsimp only
    rw [keyBelow_below hnames (Files.ne_empty_of_find hroot), hparse, ok_bind,
      List.filterMap_cons_some hdoc]
    exact ih hfound hvalid _

/-! ## Loaded libraries are orderly -/

theorem Orderly.insertLoaded {library : SkillLibrary} (h : library.Orderly) {doc : SkillDocument}
    (hdoc : doc.Numbered) : (library.insertLoaded doc).Orderly := by
  unfold SkillLibrary.insertLoaded
  dsimp only
  split
  · exact h.insert hdoc
  · -- the steps of a document do not change with its name
    have hrenamed : (doc.renamed doc.header.name).Numbered := hdoc
    exact (h.insert hrenamed).insert hdoc

theorem loadFiles_orderly {paths : List String} {library library' : SkillLibrary}
    (h : library.Orderly) (hload : loadFiles root files paths library = .ok library') :
    library'.Orderly := by
  induction paths generalizing library with
  | nil =>
    cases hload
    exact h
  | cons path rest ih =>
    rw [loadFiles] at hload
    split at hload
    · cases hload
    · obtain ⟨doc, hparse, hload⟩ := bind_eq_ok hload
      exact ih (h.insertLoaded (SkillDocument.numbered_of_parse hparse)) hload

theorem loadPending_orderly {fuel : Nat} {pending : List String} {library library' : SkillLibrary}
    (h : library.Orderly) (hload : loadPending root files fuel pending library = .ok library') :
    library'.Orderly := by
  induction fuel generalizing pending library with
  | zero =>
    cases hload
    exact h
  | succ fuel ih =>
    cases pending with
    | nil =>
      cases hload
      exact h
    | cons directory pending =>
      rw [loadPending] at hload
      split at hload
      · cases hload
      · obtain ⟨found, hfound, hload⟩ := bind_eq_ok hload
        exact ih (loadFiles_orderly h hfound) hload

/-- Every document of a loaded library stands under its own name, with its steps in order. -/
theorem load_orderly {library : SkillLibrary} (hload : load root files = .ok library) :
    library.Orderly := loadPending_orderly .empty hload

/-! ## What names are bound to -/

/-- What a name is bound to when documents are loaded in an order: the last document whose path it
is, or else the first one whose title it is. -/
def bound? (order : List SkillDocument) (name : String) : Option SkillDocument :=
  (order.reverse.find? (·.name = name)).or ((order.find? (·.Titled name)).map (·.renamed name))

theorem get?_insertLoaded (doc : SkillDocument) (library : SkillLibrary) (name : String) :
    (library.insertLoaded doc).skills.get? name =
      if doc.name = name then some doc
      else (library.skills.get? name).or
        (if doc.Titled name then some (doc.renamed name) else none) := by
  unfold insertLoaded
  dsimp only
  by_cases hname : doc.name = name
  · subst hname
    rw [if_pos rfl]
    exact Entries.get?_put_self _ _ _
  · rw [if_neg hname, insert, Entries.get?_put_of_ne _ _ (Ne.symm hname)]
    split
    · next hnot =>
      -- the title is empty, or it is bound already
      by_cases htitle : doc.Titled name
      · obtain ⟨rfl, hempty⟩ := htitle
        have hhas : library.skills.has doc.header.name = true :=
          (hnot.resolve_left hempty).resolve_left (Ne.symm hname)
        obtain ⟨other, hother⟩ := Option.isSome_iff_exists.1 hhas
        rw [hother]
        rfl
      · rw [if_neg htitle, Option.or_none]
    · next hnot =>
      obtain ⟨hempty, hnot⟩ := not_or.1 hnot
      by_cases htitle : doc.header.name = name
      · subst htitle
        have hfree : library.skills.get? doc.header.name = none := by
          simpa [Entries.has] using (not_or.1 hnot).2
        have hnew : (library.insert { doc with name := doc.header.name }).skills.get?
            doc.header.name = some (doc.renamed doc.header.name) := Entries.get?_put_self _ _ _
        rw [hnew, hfree, Option.none_or, if_pos ⟨rfl, hempty⟩]
      · rw [if_neg fun h => htitle h.1, Option.or_none]
        exact Entries.get?_put_of_ne _ _ (Ne.symm htitle)

theorem get?_gather (order : List SkillDocument) (name : String) :
    (gather order .empty).skills.get? name = bound? order name := by
  induction order using List.reverseRecOn with
  | nil => rfl
  | append_singleton order doc ih =>
    rw [gather, List.foldl_append, List.foldl_cons, List.foldl_nil, get?_insertLoaded]
    change (if doc.name = name then _ else ((gather order .empty).skills.get? name).or _) = _
    rw [ih]
    unfold bound?
    rw [List.reverse_append, List.reverse_singleton, List.singleton_append, List.find?_cons,
      List.find?_append]
    by_cases hname : doc.name = name
    · simp [hname]
    · by_cases htitle : doc.Titled name
      · cases order.find? (·.Titled name) <;> simp [hname, htitle]
      · simp [hname, htitle]

theorem bound?_of_path {order : List SkillDocument} {doc : SkillDocument} (h : doc ∈ order) :
    ∃ other ∈ order, other.name = doc.name ∧ bound? order doc.name = some other := by
  obtain ⟨other, hother⟩ : ∃ other, order.reverse.find? (·.name = doc.name) = some other :=
    Option.isSome_iff_exists.1
      (List.find?_isSome.2 ⟨doc, List.mem_reverse.2 h, decide_eq_true rfl⟩)
  have hname := List.find?_some hother
  refine ⟨other, List.mem_reverse.1 (List.mem_of_find?_eq_some hother), of_decide_eq_true hname, ?_⟩
  unfold bound?
  rw [hother]
  rfl

theorem bound?_of_title {order : List SkillDocument} {name : String} {doc : SkillDocument}
    (h : bound? order name = some doc) (hpath : ∀ other ∈ order, other.name ≠ name) :
    ∃ other ∈ order, other.Titled name ∧ doc = other.renamed name := by
  have hnone : order.reverse.find? (·.name = name) = none :=
    List.find?_eq_none.2 fun other hother => by simpa using hpath other (List.mem_reverse.1 hother)
  unfold bound? at h
  rw [hnone, Option.none_or] at h
  obtain ⟨other, hother, rfl⟩ := Option.map_eq_some_iff.1 h
  have htitle := List.find?_some hother
  exact ⟨other, List.mem_of_find?_eq_some hother, of_decide_eq_true htitle, rfl⟩

theorem isSome_bound? {order : List SkillDocument} {name : String} :
    (bound? order name).isSome ↔ ∃ doc ∈ order, doc.name = name ∨ doc.Titled name := by
  unfold bound?
  rw [Option.isSome_or, Bool.or_eq_true, Option.isSome_map, List.find?_isSome, List.find?_isSome]
  simp only [List.mem_reverse, decide_eq_true_eq, ← exists_or, ← and_or_left]

/-! ## Files that agree -/

/-- The files that bear a name agree on the document that it is bound to: all files of that path have
the same one, and if there is no file of that path, so have all files of that title. -/
def Agreed (docs : List SkillDocument) (name : String) : Prop :=
  (∀ a ∈ docs, ∀ b ∈ docs, a.name = name → b.name = name → a = b) ∧
    ((∃ doc ∈ docs, doc.name = name) ∨ ∀ a ∈ docs, ∀ b ∈ docs,
      a.Titled name → b.Titled name → a.renamed name = b.renamed name)

theorem find?_map_congr {α β : Type} {p : α → Bool} {f : α → β} {l l' : List α}
    (hmem : ∀ a, a ∈ l ↔ a ∈ l') (hsame : ∀ a ∈ l, ∀ b ∈ l, p a → p b → f a = f b) :
    (l.find? p).map f = (l'.find? p).map f := by
  cases hl : l.find? p with
  | none =>
    have hl' : l'.find? p = none :=
      List.find?_eq_none.2 fun a ha => List.find?_eq_none.1 hl a ((hmem a).2 ha)
    rw [hl']
  | some a =>
    have ha := List.mem_of_find?_eq_some hl
    have hpa := List.find?_some hl
    obtain ⟨b, hb⟩ : ∃ b, l'.find? p = some b :=
      Option.isSome_iff_exists.1 (List.find?_isSome.2 ⟨a, (hmem a).1 ha, hpa⟩)
    have hmemb := (hmem b).2 (List.mem_of_find?_eq_some hb)
    rw [hb, Option.map_some, Option.map_some, hsame a ha b hmemb hpa (List.find?_some hb)]

/-- What files agree on does not depend on the order in which they are loaded. -/
theorem bound?_congr {order order' docs : List SkillDocument} {name : String}
    (h : order.Perm docs) (h' : order'.Perm docs) (hagreed : Agreed docs name) :
    bound? order name = bound? order' name := by
  have hmem : ∀ doc, doc ∈ order ↔ doc ∈ order' := fun doc => h.mem_iff.trans h'.mem_iff.symm
  obtain ⟨hpaths, htitles⟩ := hagreed
  have hpath : (order.reverse.find? (·.name = name)).map id =
      (order'.reverse.find? (·.name = name)).map id := by
    refine find?_map_congr (fun doc => by rw [List.mem_reverse, List.mem_reverse, hmem]) ?_
    intro a ha b hb hname hname'
    rw [List.mem_reverse, h.mem_iff] at ha hb
    exact hpaths a ha b hb (of_decide_eq_true hname) (of_decide_eq_true hname')
  rw [Option.map_id_fun, id, id] at hpath
  unfold bound?
  rw [hpath]
  rcases htitles with ⟨doc, hdoc, hname⟩ | htitles
  · have hsome : (order'.reverse.find? (·.name = name)).isSome :=
      List.find?_isSome.2 ⟨doc, List.mem_reverse.2 (h'.mem_iff.2 hdoc), decide_eq_true hname⟩
    obtain ⟨other, hother⟩ := Option.isSome_iff_exists.1 hsome
    rw [hother, Option.some_or, Option.some_or]
  · rw [find?_map_congr hmem fun a ha b hb hname hname' => htitles a (h.mem_iff.1 ha) b
      (h.mem_iff.1 hb) (of_decide_eq_true hname) (of_decide_eq_true hname')]

/-! ## Every order of the tree -/

theorem trimMatches_of_mem (hformed : files.WellFormed) {file : List String × ByteArray}
    (h : file ∈ files.skillsBelow base) : Text.trimMatches '/' (keyOf file.1) = keyOf file.1 := by
  obtain ⟨rel, bytes⟩ := file
  have hnames := hformed.isName_of_skillsBelow h
  obtain ⟨-, -, hlast⟩ := hformed.mem_skillsBelow.1 h
  induction rel using List.reverseRecOn with
  | nil => cases hlast
  | append_singleton front name =>
    obtain ⟨hfront, hname⟩ := List.forall_mem_append.1 hnames
    rw [List.getLast?_concat] at hlast
    exact trimMatches_keyOf hfront (List.forall_mem_singleton.1 hname) hlast

/-- Every skill file below a directory can be read and is valid. -/
def AllValid (base : Place) (files : Files) : Prop :=
  ∀ file ∈ files.skillsBelow base, (document? file).isSome

/-- A library has what is in these skill files, loaded in some order: their paths and titles are its
names, every path leads to what is in a file of that path, and a title that is no path to what is in
a file of that title. -/
structure Holds (skills : List (List String × ByteArray)) (library : SkillLibrary) : Prop where
  order : ∃ order, order.Perm (skills.filterMap document?) ∧
    ∀ name, library.skills.get? name = bound? order name
  names : ∀ name, library.skills.has name ↔
    ∃ doc ∈ skills.filterMap document?, doc.name = name ∨ doc.Titled name
  paths : ∀ file ∈ skills, ∃ other ∈ skills, ∃ doc, keyOf other.1 = keyOf file.1 ∧
    document? other = some doc ∧ library.get? (keyOf file.1) = some doc
  titles : ∀ name doc, (∀ file ∈ skills, keyOf file.1 ≠ name) →
    library.skills.get? name = some doc →
    ∃ file ∈ skills, ∃ other, document? file = some other ∧ other.Titled name ∧
      doc = other.renamed name

theorem holds_gather (hformed : files.WellFormed) (hvalid : AllValid base files)
    {order : List SkillDocument} (horder : order.Perm ((files.skillsBelow base).filterMap document?)) :
    Holds (files.skillsBelow base) (gather order .empty) where
  order := ⟨order, horder, get?_gather order⟩
  names name := by
    rw [Entries.has, get?_gather, isSome_bound?]
    simp only [horder.mem_iff]
  paths file hfile := by
    obtain ⟨doc, hdoc⟩ := Option.isSome_iff_exists.1 (hvalid file hfile)
    have hmem : doc ∈ order := horder.mem_iff.2 (List.mem_filterMap.2 ⟨file, hfile, hdoc⟩)
    obtain ⟨found, hfound, hname, hbound⟩ := bound?_of_path hmem
    obtain ⟨other, hother, hdocument⟩ := List.mem_filterMap.1 (horder.mem_iff.1 hfound)
    rw [name_of_document? hdoc] at hname hbound
    refine ⟨other, hother, found, (name_of_document? hdocument).symm.trans hname, hdocument, ?_⟩
    rw [get?, trimMatches_of_mem hformed hfile, get?_gather, hbound]
  titles name doc hpath hget := by
    rw [get?_gather] at hget
    obtain ⟨other, hother, htitle, hdoc⟩ := bound?_of_title hget fun found hfound hname => by
      obtain ⟨file, hfile, hdocument⟩ := List.mem_filterMap.1 (horder.mem_iff.1 hfound)
      exact hpath file hfile ((name_of_document? hdocument).symm.trans hname)
    obtain ⟨file, hfile, hdocument⟩ := List.mem_filterMap.1 (horder.mem_iff.1 hother)
    exact ⟨file, hfile, other, hdocument, htitle, hdoc⟩

/-- Loading a directory of valid skill files gathers their documents in some order. -/
theorem load_eq_gather (hformed : files.WellFormed) (hroot : files.find root = .ok (base, .directory))
    (hvalid : AllValid base files) : ∃ order : List SkillDocument,
      order.Perm ((files.skillsBelow base).filterMap document?) ∧
        load root files = .ok (gather order .empty) := by
  obtain ⟨found, hfound, hload⟩ := load_eq_loadFiles hformed hroot
  refine ⟨found.filterMap document?, hfound.filterMap _, ?_⟩
  rw [hload]
  exact loadFiles_eq hformed hroot (fun file hfile => hfound.mem_iff.1 hfile)
    (fun file hfile => hvalid file (hfound.mem_iff.1 hfile)) .empty

/-- Whatever the order in which a tree of valid skill files is listed, it loads, the library has the
same names, and every file is found under its path, or another one of the same path. A name means the
same in every order if the files that bear it agree on what it is. -/
theorem load_any_order {files' : Files} (hformed : files.WellFormed)
    (hroot : files.find root = .ok (base, .directory)) (hvalid : AllValid base files)
    (horder : files'.nodes.Perm files.nodes) :
    ∃ library library', load root files = .ok library ∧ load root files' = .ok library' ∧
      Holds (files.skillsBelow base) library ∧ Holds (files.skillsBelow base) library' ∧
      (∀ name, library.skills.has name = library'.skills.has name) ∧
      ∀ name, Agreed ((files.skillsBelow base).filterMap document?) name →
        library.skills.get? name = library'.skills.get? name := by
  obtain ⟨hformed', hsame⟩ := hformed.of_perm horder
  have hskills : (files'.skillsBelow base).Perm (files.skillsBelow base) := horder.filterMap _
  have hroot' : files'.find root = .ok (base, .directory) := (Files.find_congr hsame root).trans hroot
  have hvalid' : AllValid base files' := fun file hfile => hvalid file (hskills.mem_iff.1 hfile)
  obtain ⟨order, hgathered, hload⟩ := load_eq_gather hformed hroot hvalid
  obtain ⟨order', hgathered', hload'⟩ := load_eq_gather hformed' hroot' hvalid'
  have hgathered' := hgathered'.trans (hskills.filterMap _)
  have hholds := holds_gather hformed hvalid hgathered
  have hholds' := holds_gather hformed hvalid hgathered'
  refine ⟨_, _, hload, hload', hholds, hholds', fun name => ?_, fun name hagreed => ?_⟩
  · exact Bool.eq_iff_iff.2 ((hholds.names name).trans (hholds'.names name).symm)
  · rw [get?_gather, get?_gather]
    exact bound?_congr hgathered hgathered' hagreed

/-- The path of a single file is agreed on, whatever titles there are. -/
theorem agreed_of_path {docs : List SkillDocument} {doc : SkillDocument} (hdoc : doc ∈ docs)
    (hpaths : (docs.map (·.name)).Nodup) : Agreed docs doc.name :=
  ⟨fun _ ha _ hb hname hname' => List.inj_on_of_nodup_map hpaths ha hb (hname.trans hname'.symm),
    .inl ⟨doc, hdoc, rfl⟩⟩

theorem document?_of_parse {rel : List String} {text : String} {doc : SkillDocument}
    (h : SkillDocument.parse (keyOf rel) text = .ok doc) : document? (rel, text.toUTF8) = some doc := by
  have htext : String.fromUTF8? text.toUTF8 = some text := by
    rw [String.fromUTF8?, String.toUTF8_eq_toByteArray, dif_pos text.isValidUTF8]
    rfl
  exact document?_eq_some.2 ⟨text, htext, h⟩

/-- Skill files are valid if their documents are known. -/
theorem valid_of_documents {skills : List (List String × ByteArray)} {docs : List SkillDocument}
    (h : skills.map document? = docs.map some) :
    (∀ file ∈ skills, (document? file).isSome) ∧ skills.filterMap document? = docs := by
  constructor
  · intro file hfile
    have hmem : document? file ∈ docs.map some := h ▸ List.mem_map_of_mem hfile
    obtain ⟨doc, -, hdoc⟩ := List.mem_map.1 hmem
    rw [← hdoc]
    rfl
  · calc skills.filterMap document? = (skills.map document?).filterMap id := by
          rw [List.filterMap_map, Function.id_comp]
      _ = (docs.map some).filterMap id := by rw [h]
      _ = docs := by rw [List.filterMap_map, Function.id_comp, List.filterMap_some]

/-- The text of a document with a title. -/
def titledText : String := "\x7b\"header\": \x7b\"name\": \"pay\"\x7d\x7d"

theorem parse_titledText (name : String) : SkillDocument.parse name titledText =
    .ok ⟨name, { SkillHeader.empty with name := "pay" }, []⟩ := by
  have hname : Json.ReadsEntries 125 "\"name\": \"pay\"\x7d\x7d".toList [("name", .text "pay")]
      "\x7d".toList :=
    .last ⟨_, rfl, rfl⟩ rfl ⟨_, rfl, rfl⟩ (.text ⟨_, rfl, rfl⟩ rfl) ⟨_, rfl, rfl⟩
  have hheader : Json.ReadsEntries 126 "\"header\": \x7b\"name\": \"pay\"\x7d\x7d".toList
      [("header", .object [("name", .text "pay")])] [] :=
    .last ⟨_, rfl, rfl⟩ rfl ⟨_, rfl, rfl⟩ (.object ⟨_, rfl, rfl⟩ ⟨_, rfl, rfl⟩ hname) ⟨_, rfl, rfl⟩
  have hreads : Json.Reads Json.depthLimit (SkillDocument.stripComments titledText).toList
      (.object [("header", .object [("name", .text "pay")])]) [] :=
    .object ⟨_, rfl, rfl⟩ ⟨_, rfl, rfl⟩ hheader
  unfold SkillDocument.parse
  rw [Json.read_of_reads hreads rfl]
  cbv

/-- The text of another document with the same title. -/
def namesakeText : String := "\x7b\"header\": \x7b\"name\": \"pay\", \"os\": \"any\"\x7d\x7d"

theorem parse_namesakeText (name : String) : SkillDocument.parse name namesakeText =
    .ok ⟨name, { SkillHeader.empty with name := "pay", os := "any" }, []⟩ := by
  have hos : Json.ReadsEntries 125 " \"os\": \"any\"\x7d\x7d".toList [("os", .text "any")]
      "\x7d".toList :=
    .last ⟨_, rfl, rfl⟩ rfl ⟨_, rfl, rfl⟩ (.text ⟨_, rfl, rfl⟩ rfl) ⟨_, rfl, rfl⟩
  have hname : Json.ReadsEntries 125 "\"name\": \"pay\", \"os\": \"any\"\x7d\x7d".toList
      [("name", .text "pay"), ("os", .text "any")] "\x7d".toList :=
    .more ⟨_, rfl, rfl⟩ rfl ⟨_, rfl, rfl⟩ (.text ⟨_, rfl, rfl⟩ rfl) ⟨_, rfl, rfl⟩ hos
  have hheader : Json.ReadsEntries 126
      "\"header\": \x7b\"name\": \"pay\", \"os\": \"any\"\x7d\x7d".toList
      [("header", .object [("name", .text "pay"), ("os", .text "any")])] [] :=
    .last ⟨_, rfl, rfl⟩ rfl ⟨_, rfl, rfl⟩ (.object ⟨_, rfl, rfl⟩ ⟨_, rfl, rfl⟩ hname) ⟨_, rfl, rfl⟩
  have hreads : Json.Reads Json.depthLimit (SkillDocument.stripComments namesakeText).toList
      (.object [("header", .object [("name", .text "pay"), ("os", .text "any")])]) [] :=
    .object ⟨_, rfl, rfl⟩ ⟨_, rfl, rfl⟩ hheader
  unfold SkillDocument.parse
  rw [Json.read_of_reads hreads rfl]
  cbv

/-- A directory with a file whose path is the title of two others, one of them further down. -/
def shelf : Files where
  nodes := [(["lib"], .directory), (["lib", "pay.psk"], .file "\x7b\x7d".toUTF8),
    (["lib", "card.psk"], .file titledText.toUTF8), (["lib", "cash"], .directory),
    (["lib", "cash", "coin.json"], .file namesakeText.toUTF8)]

theorem shelf_wellFormed : shelf.WellFormed where
  distinct := by decide
  placed := by
    simp only [shelf, List.forall_mem_cons]
    exact ⟨⟨[], "lib", rfl, by decide, rfl⟩, ⟨["lib"], "pay.psk", rfl, by decide, rfl⟩,
      ⟨["lib"], "card.psk", rfl, by decide, rfl⟩, ⟨["lib"], "cash", rfl, by decide, rfl⟩,
      ⟨["lib", "cash"], "coin.json", rfl, by decide, rfl⟩, List.forall_mem_nil _⟩

theorem skillsBelow_shelf : shelf.skillsBelow ["lib"] = [(["pay.psk"], "\x7b\x7d".toUTF8),
    (["card.psk"], titledText.toUTF8), (["cash", "coin.json"], namesakeText.toUTF8)] := rfl

theorem parse_nothing (name : String) : SkillDocument.parse name "\x7b\x7d" =
    .ok ⟨name, .empty, []⟩ := by cbv

theorem documents_shelf : (shelf.skillsBelow ["lib"]).map document? =
    [⟨"pay", .empty, []⟩, ⟨"card", { SkillHeader.empty with name := "pay" }, []⟩,
      ⟨"cash/coin", { SkillHeader.empty with name := "pay", os := "any" }, []⟩].map some := by
  rw [skillsBelow_shelf, List.map_cons, List.map_cons, List.map_cons, List.map_nil,
    document?_of_parse (parse_nothing _), document?_of_parse (parse_titledText _),
    document?_of_parse (parse_namesakeText _)]
  rfl

theorem load_any_order_shelf : ∃ library library', load "lib" shelf = .ok library ∧
    load "lib" ⟨shelf.nodes.reverse⟩ = .ok library' ∧
    Holds (shelf.skillsBelow ["lib"]) library ∧ Holds (shelf.skillsBelow ["lib"]) library' ∧
    library.skills.get? "pay" = library'.skills.get? "pay" := by
  have hroot : shelf.find "lib" = .ok (["lib"], .directory) := rfl
  obtain ⟨hvalid, hdocs⟩ := valid_of_documents documents_shelf
  obtain ⟨library, library', hload, hload', hholds, hholds', -, hsame⟩ :=
    load_any_order shelf_wellFormed hroot hvalid (List.reverse_perm shelf.nodes)
  refine ⟨library, library', hload, hload', hholds, hholds', hsame "pay" ?_⟩
  rw [hdocs]
  exact agreed_of_path List.mem_cons_self (by decide)

/-- A directory that has no directories in it is loaded in the order in which it is listed. -/
theorem load_flat (hformed : files.WellFormed) (hroot : files.find root = .ok (base, .directory))
    (hvalid : AllValid base files) (hflat : left files base [] [] = []) :
    load root files = .ok (gather ((foundAt files base []).filterMap document?) .empty) := by
  have hat : files.find (Path.below root []) = .ok (base ++ [], .directory) := by
    rwa [List.append_nil]
  have hmem : ∀ file ∈ foundAt files base [], file ∈ files.skillsBelow base := by
    rintro ⟨path, bytes⟩ hfile
    obtain ⟨name, rfl, hlisted⟩ := mem_foundAt.1 hfile
    rw [List.append_nil] at hlisted
    exact hformed.mem_skillsBelow_iff.2 (.inl ⟨name, rfl, hlisted⟩)
  change loadPending root files (files.nodes.length + 1) (pathsOf root [[]]) .empty = _
  have hfiles := loadFiles_eq hformed hroot hmem (fun file hfile => hvalid file (hmem file hfile)) .empty
  rw [loadPending_next hat, hflat, hfiles, ok_bind]
  cases files.nodes.length <;> rfl

/-- A directory with two files of one title, which is no path. -/
def twins : Files where
  nodes := [(["lib"], .directory), (["lib", "card.psk"], .file titledText.toUTF8),
    (["lib", "coin.json"], .file namesakeText.toUTF8)]

theorem twins_wellFormed : twins.WellFormed where
  distinct := by decide
  placed := by
    simp only [twins, List.forall_mem_cons]
    exact ⟨⟨[], "lib", rfl, by decide, rfl⟩, ⟨["lib"], "card.psk", rfl, by decide, rfl⟩,
      ⟨["lib"], "coin.json", rfl, by decide, rfl⟩, List.forall_mem_nil _⟩

theorem documents_twins : [(["card.psk"], titledText.toUTF8),
      (["coin.json"], namesakeText.toUTF8)].map document? =
    [⟨"card", { SkillHeader.empty with name := "pay" }, []⟩,
      ⟨"coin", { SkillHeader.empty with name := "pay", os := "any" }, []⟩].map some := by
  rw [List.map_cons, List.map_cons, List.map_nil, document?_of_parse (parse_titledText _),
    document?_of_parse (parse_namesakeText _)]
  rfl

/-- What a title that two files have is bound to depends on which of them is listed first. -/
theorem not_load_any_order : ¬∀ (files files' : Files) root base, files.WellFormed →
    files.find root = .ok (base, .directory) → AllValid base files →
    files'.nodes.Perm files.nodes → ∀ library library', load root files = .ok library →
    load root files' = .ok library' → ∀ name, library.skills.get? name = library'.skills.get? name := by
  intro h
  have horder : (Files.mk twins.nodes.reverse).nodes.Perm twins.nodes := List.reverse_perm _
  have hroot : twins.find "lib" = .ok (["lib"], .directory) := rfl
  have hroot' : (Files.mk twins.nodes.reverse).find "lib" = .ok (["lib"], .directory) := rfl
  obtain ⟨hvalid, hdocs⟩ := valid_of_documents documents_twins
  have hvalid' : AllValid ["lib"] ⟨twins.nodes.reverse⟩ :=
    fun file hfile => hvalid file ((horder.filterMap _).mem_iff.1 hfile)
  have hload := load_flat twins_wellFormed hroot hvalid rfl
  have hload' := load_flat (twins_wellFormed.of_perm horder).1 hroot' hvalid' rfl
  have hsame := h _ _ "lib" ["lib"] twins_wellFormed hroot hvalid horder _ _ hload hload' "pay"
  have hlisted : foundAt twins ["lib"] [] = [(["card.psk"], titledText.toUTF8),
    (["coin.json"], namesakeText.toUTF8)] := rfl
  have hreversed : foundAt ⟨twins.nodes.reverse⟩ ["lib"] [] = (foundAt twins ["lib"] []).reverse := rfl
  rw [get?_gather, get?_gather, hreversed, List.filterMap_reverse, hlisted, hdocs] at hsame
  have hos := congrArg (Option.map fun doc => doc.header.os) hsame
  revert hos
  decide

end SkillLibrary

end Deskhand
