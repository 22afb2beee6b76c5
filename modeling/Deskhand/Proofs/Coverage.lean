import Mathlib.Data.List.Nodup
import Deskhand.Proofs.Callees

/-!
# What a program covers

A resolved program consists of the main document and of all library documents that can be reached
from it, one range behind the other (`resolve_covers_reachable`). If the library is asked for plain
keys only, each of them is there once, and no two instructions have one address. A key that ends with
a slash is looked up without it, but not known as seen without it: `not_covers_once` calls one
document by two keys and gets it twice.
-/

namespace Deskhand

/-! ## Ranges -/

/-- The ranges of the documents of a program make up its instructions, the main document first, and
every instruction knows the document that it belongs to. -/
structure Program.Partitioned (main : SkillDocument) (p : Program) : Prop where
  first : ∃ span, p.documents[0]? = some span ∧ span.name = main.name ∧ span.start = 0
  next : ∀ k a b, p.documents[k]? = some a → p.documents[k + 1]? = some b → b.start = a.stop
  last : ∀ k a, p.documents[k]? = some a → k + 1 = p.documents.length → a.stop = p.size
  nonempty : ∀ span ∈ p.documents, span.start < span.stop
  owner : ∀ span ∈ p.documents, ∀ j i, span.start ≤ j → j < span.stop →
    p.instructions[j]? = some i → i.address.skill = span.name

namespace Program

variable {docs : List SkillDocument} {p : Program}

theorem Written.length (h : p.Written docs) : p.documents.length = docs.length := by
  refine Nat.le_antisymm ?_ ?_
  · exact List.getElem?_eq_none_iff.1 (by rw [h.documents, List.getElem?_eq_none (Nat.le_refl _)]; rfl)
  · have hnone := h.documents p.documents.length
    rw [List.getElem?_eq_none (Nat.le_refl _)] at hnone
    exact List.getElem?_eq_none_iff.1 (Option.map_eq_none_iff.1 hnone.symm)

theorem Written.span (h : p.Written docs) {k : Nat} {span : DocumentSpan}
    (hk : p.documents[k]? = some span) : ∃ doc, docs[k]? = some doc ∧ span = spanIn docs k doc := by
  rw [h.documents] at hk
  obtain ⟨doc, hdoc, rfl⟩ := Option.map_eq_some_iff.1 hk
  exact ⟨doc, hdoc, rfl⟩

theorem Written.names (h : p.Written docs) : p.documents.map (·.name) = docs.map (·.name) := by
  refine List.ext_getElem? fun k => ?_
  rw [List.getElem?_map, List.getElem?_map, h.documents, Option.map_map]
  rfl

/-- Every instruction was laid out. -/
theorem Written.origin (h : p.Written docs) {j : Nat} {i : Instruction}
    (hi : p.instructions[j]? = some i) :
    ∃ old, (layout docs)[j]? = some old ∧ i.address = old.address ∧ old.op.Becomes i.op := by
  obtain ⟨hsize, -⟩ := Array.getElem?_eq_some_iff.1 hi
  have hold : (layout docs)[j]? = some _ := List.getElem?_eq_getElem (h.size ▸ hsize)
  obtain ⟨i', hi', haddress, hbecomes⟩ := h.code j _ hold
  rw [hi] at hi'
  cases hi'
  exact ⟨_, hold, haddress, hbecomes⟩

theorem Written.partitioned {main : SkillDocument} {rest : List SkillDocument}
    (h : p.Written (main :: rest)) : p.Partitioned main where
  first := ⟨_, h.documents 0, rfl, rfl⟩
  next k a b ha hb := by
    obtain ⟨doc, -, rfl⟩ := h.span ha
    obtain ⟨doc', -, rfl⟩ := h.span hb
    rfl
  last k a ha hk := by
    obtain ⟨doc, -, rfl⟩ := h.span ha
    rw [h.size, spanIn, hk, h.length, List.take_length]
  nonempty span hspan := by
    obtain ⟨k, hk⟩ := List.getElem?_of_mem hspan
    obtain ⟨doc, hdoc, rfl⟩ := h.span hk
    have hpos := doc.length_instructions_pos k
    rw [spanIn_stop hdoc]
    exact Nat.lt_add_of_pos_right hpos
  owner span hspan j i hle hlt hi := by
    obtain ⟨k, hk⟩ := List.getElem?_of_mem hspan
    obtain ⟨doc, hdoc, rfl⟩ := h.span hk
    have hj := getElem?_layout hdoc hle hlt
    obtain ⟨old, hold, haddress, -⟩ := h.origin hi
    rw [haddress]
    rw [hold] at hj
    exact SkillDocument.skill_of_mem_instructions (List.mem_of_getElem? hj.symm)

/-- The addresses of a program are those that were laid out. -/
theorem Written.addresses (h : p.Written docs) :
    p.instructions.toList.map (·.address) = (layout docs).map (·.address) := by
  refine List.ext_getElem? fun j => ?_
  rw [List.getElem?_map, List.getElem?_map, Array.getElem?_toList]
  cases hj : (layout docs)[j]? with
  | none =>
    have hle : p.instructions.size ≤ j := by
      have hsize : p.instructions.size = _ := h.size
      rw [hsize]
      exact List.getElem?_eq_none_iff.1 hj
    rw [Array.getElem?_eq_none hle]
  | some i =>
    obtain ⟨i', hi', haddress, -⟩ := h.code j i hj
    rw [hi', Option.map_some, Option.map_some, haddress]

end Program

/-! ## Addresses -/

namespace SkillDocument

variable {doc : SkillDocument} {document : Nat}

/-- The addresses of a step. -/
theorem address_of_mem_instructions {name : String} {s : RawStep} {a : Address}
    (h : a ∈ (s.instructions name document).map (·.address)) :
    a.step = s.number ∧
      (a.synthetic = true → ∃ c, s.code document = .ok c ∧ c.setup.isSome) := by
  obtain ⟨i, hi, rfl⟩ := List.mem_map.1 h
  unfold RawStep.instructions at hi
  split at hi
  · next c hc =>
    rcases List.mem_append.1 hi with hi | hi
    · obtain ⟨op, hop, rfl⟩ := List.mem_map.1 hi
      exact ⟨rfl, fun _ => ⟨c, hc, Option.isSome_iff_exists.2 ⟨op, Option.mem_toList.1 hop⟩⟩⟩
    · obtain rfl := List.mem_singleton.1 hi
      exact ⟨rfl, nofun⟩
  · cases hi

theorem nodup_step (name : String) (document : Nat) (s : RawStep) :
    ((s.instructions name document).map (·.address)).Nodup := by
  unfold RawStep.instructions
  split
  · next c _ => cases hs : c.setup <;> simp
  · exact List.nodup_nil

/-- A step whose code sets something up ahead of it is a loop. -/
theorem loop_of_setup {s : RawStep} {c : StepCode} (h : s.code document = .ok c)
    (hsetup : c.setup.isSome) : ∃ guard count counter stop, c.op = .loop guard count counter stop := by
  cases coded h with
  | loop guard count counter => exact ⟨guard, count, counter, _, rfl⟩
  | _ => cases hsetup

/-- The step that has the number of the last one is the last one. -/
theorem getLast?_of_number (hdoc : doc.Numbered) {s : RawStep} (hs : s ∈ doc.steps)
    (hnumber : s.number = doc.lastNumber) : doc.steps.getLast? = some s := by
  obtain ⟨last, hgetLast⟩ : ∃ last, doc.steps.getLast? = some last :=
    Option.ne_none_iff_exists'.1 fun hnone => by
      rw [List.getLast?_eq_none_iff.1 hnone] at hs
      cases hs
  obtain ⟨front, hfront⟩ := List.getLast?_eq_some_iff.1 hgetLast
  have hlast : doc.lastNumber = last.number := by
    unfold lastNumber
    rw [hgetLast]
    rfl
  unfold Numbered at hdoc
  rw [hfront] at hdoc hs
  rcases List.mem_append.1 hs with hs | hs
  · have hlt := (List.pairwise_append.1 hdoc).2.2 s hs last List.mem_cons_self
    omega
  · obtain rfl := List.mem_singleton.1 hs
    exact hgetLast

/-- No two instructions of a document have one address, unless it ends with a loop. -/
theorem nodup_instructions (hdoc : doc.Numbered)
    (hlast : ∀ s c, doc.steps.getLast? = some s → s.code document = .ok c → c.setup = none) :
    ((doc.instructions document).map (·.address)).Nodup := by
  unfold instructions
  rw [List.map_append, List.map_flatMap]
  refine List.nodup_append.2 ⟨List.nodup_flatMap.2 ⟨fun s _ => nodup_step _ _ s, ?_⟩,
    List.nodup_cons.2 ⟨List.not_mem_nil, .nil⟩, fun a ha b hb heq => ?_⟩
  · refine hdoc.imp fun {s s'} hlt a ha ha' => ?_
    have hstep := (address_of_mem_instructions ha).1
    have hstep' := (address_of_mem_instructions ha').1
    omega
  · obtain rfl := List.mem_singleton.1 hb
    subst heq
    obtain ⟨s, hs, ha⟩ := List.mem_flatMap.1 ha
    obtain ⟨hstep, hsetup⟩ := address_of_mem_instructions ha
    obtain ⟨c, hc, hsome⟩ := hsetup rfl
    rw [hlast s c (getLast?_of_number hdoc hs hstep.symm) hc] at hsome
    cases hsome

/-- The last step stands right ahead of the end of its document. -/
theorem getElem?_of_getLast? {s : RawStep} {c : StepCode} (hs : doc.steps.getLast? = some s)
    (hc : s.code document = .ok c) : ∃ j, j + 2 = (doc.instructions document).length ∧
      (doc.instructions document)[j]?.map (·.op) = some c.op := by
  obtain ⟨front, hfront⟩ := List.getLast?_eq_some_iff.1 hs
  unfold instructions
  rw [hfront, List.flatMap_append, List.flatMap_singleton, RawStep.instructions_of_code doc.name hc]
  refine ⟨(front.flatMap (·.instructions doc.name document)).length + c.setup.toList.length, ?_, ?_⟩
  · simp; omega
  · simp

end SkillDocument

namespace Draft.Resolution

variable {main : SkillDocument} {library : SkillLibrary} {taken : List (String × SkillDocument)}
  {first linked last : Draft}

theorem surveyed (h : Resolution main library taken first linked last) :
    Surveyed first (fun _ _ => False) first.sections.size linked :=
  link_surveyed ⟨h.laid, h.drafted, fun _ _ _ _ => False.elim⟩
    (fun _ _ hsec => h.holds.unlinked hsec) (fun _ _ => False.elim) h.link

/-- No document of a program ends with a loop. -/
theorem setup_of_last (h : Resolution main library taken first linked last) {k : Nat}
    {doc : SkillDocument} (hk : (main :: taken.map (·.2))[k]? = some doc) {s : RawStep} {c : StepCode}
    (hs : doc.steps.getLast? = some s) (hc : s.code k = .ok c) : c.setup = none := by
  rcases hsetup : c.setup with _ | op
  · rfl
  obtain ⟨guard, count, counter, stop, hloop⟩ :=
    SkillDocument.loop_of_setup hc (by rw [hsetup]; rfl)
  obtain ⟨j, hj, hop⟩ := SkillDocument.getElem?_of_getLast? hs hc
  obtain ⟨hstart, hstop⟩ := h.holds.bounds h.laid hk
  obtain ⟨hlt, -⟩ := List.getElem?_eq_some_iff.1 hk
  have hlength := spanIn_stop hk
  have hcode := getElem?_layout hk (Nat.le_add_right _ j) (by omega)
  rw [Nat.add_sub_cancel_left] at hcode
  refine absurd ?_ (h.surveyed.closed k (h.holds.count.symm ▸ hlt)
    ((spanIn (main :: taken.map (·.2)) k doc).start + j) guard count counter stop (by omega) (by omega))
  rw [op?_eq_toList, h.holds.code, hcode, hop, hloop]

theorem numbered (h : Resolution main library taken first linked last) (hmain : main.Numbered)
    (hlibrary : library.Orderly) : ∀ doc ∈ main :: taken.map (·.2), doc.Numbered := by
  obtain ⟨seen, hgathering⟩ := h.gathering
  refine List.forall_mem_cons.2 ⟨hmain, fun doc hdoc => ?_⟩
  obtain ⟨t, ht, rfl⟩ := List.mem_map.1 hdoc
  exact hlibrary.numbered _ _ (hgathering.asked t ht)

/-- If all documents have names of their own, all instructions have addresses of their own. -/
theorem nodup_addresses (h : Resolution main library taken first linked last)
    (hmain : main.Numbered) (hlibrary : library.Orderly)
    (hdistinct : ((main :: taken.map (·.2)).map (·.name)).Nodup) :
    ((last.finish main).instructions.toList.map (·.address)).Nodup := by
  rw [h.written.addresses]
  have hlast : ∀ (k : Nat) (doc : SkillDocument), (main :: taken.map (·.2))[k]? = some doc →
      ∀ (s : RawStep) (c : StepCode), doc.steps.getLast? = some s → s.code k = .ok c →
        c.setup = none := fun _ _ hk _ _ => h.setup_of_last hk
  have hnumbered := h.numbered hmain hlibrary
  generalize main :: taken.map (·.2) = docs at *
  rw [← List.zipIdx_map_fst 0 docs, List.Nodup, List.pairwise_map, List.pairwise_map] at hdistinct
  rw [Deskhand.layout, List.map_flatMap]
  refine List.nodup_flatMap.2 ⟨?_, ?_⟩
  · rintro ⟨doc, k⟩ he
    have hk : docs[k]? = some doc := List.mk_mem_zipIdx_iff_getElem?.1 he
    exact SkillDocument.nodup_instructions (hnumbered doc (List.mem_of_getElem? hk)) (hlast k doc hk)
  · refine hdistinct.imp fun {e e'} hne a ha ha' => hne ?_
    obtain ⟨i, hi, rfl⟩ := List.mem_map.1 ha
    obtain ⟨i', hi', heq⟩ := List.mem_map.1 ha'
    rw [← SkillDocument.skill_of_mem_instructions hi, ← SkillDocument.skill_of_mem_instructions hi',
      heq]

end Draft.Resolution

/-! ## Every skill that can be reached -/

/-- Resolving comes to an end because nothing is left to be taken up, and a program has the main
document and every document that can be reached from it. If the library is asked for plain keys only,
each of them is there once, and every instruction has an address of its own. -/
theorem resolve_covers_reachable {main : SkillDocument} {library : SkillLibrary}
    (hmain : main.Numbered) (hlibrary : library.Orderly) :
    (∀ d keys, Draft.empty.pushDocument main .finish = .ok (d, keys) →
      Draft.Gathers library (Draft.mainNames main) keys (d.titled main)
        (Draft.ofDocuments main library)) ∧
    ∀ p, resolve main library = .ok p → ∃ taken,
      p.Partitioned main ∧ p.Written (main :: taken) ∧
      (∀ doc, Reaches main library doc ↔ doc ∈ main :: taken) ∧
      (AsksPlainly main library →
        ((main :: taken).map (·.name)).Nodup ∧
        (p.instructions.toList.map (·.address)).Nodup) := by
  refine ⟨fun d keys h => Draft.gathers_ofDocuments library h, fun p hp => ?_⟩
  obtain ⟨taken, first, linked, last, hresolution, rfl⟩ := Draft.resolution_of_resolve hp
  obtain ⟨seen, hgathering⟩ := hresolution.gathering
  refine ⟨taken.map (·.2), hresolution.written.partitioned, hresolution.written,
    fun doc => hgathering.reaches_iff hlibrary, fun hplain => ?_⟩
  have hdistinct := hgathering.distinct hlibrary hplain
  exact ⟨hdistinct, hresolution.nodup_addresses hmain hlibrary hdistinct⟩

/-- A document with calls of a function and of two skills, which call one another and it. -/
def orderingDocument : SkillDocument where
  name := "main"
  header := .empty
  steps := [⟨"step 1", 1, "Call Function", [("fname", .text "pay")]⟩,
    ⟨"step 2", 2, "Use Skill", [("skill_path", .text "web"), ("skill_name", .text "cart")]⟩,
    ⟨"step 3", 3, "Overload Skill", [("skill_name", .text "web/cart")]⟩]

def cartDocument : SkillDocument where
  name := "web/cart"
  header := .empty
  steps := [⟨"step 1", 1, "Stub", [("stub_name", .text "start function"),
      ("func_name", .text "pay"), ("fargs", .text "sum")]⟩,
    ⟨"step 2", 2, "Stub", [("stub_name", .text "end function"), ("func_name", .text "pay")]⟩,
    ⟨"step 3", 3, "Use Skill", [("skill_name", .text "main")]⟩,
    ⟨"step 4", 4, "Use Skill", [("skill_path", .text "web"), ("skill_name", .text "ship")]⟩]

def shipDocument : SkillDocument where
  name := "web/ship"
  header := .empty
  steps := [⟨"step 1", 1, "Stub", [("stub_name", .text "start function"),
      ("func_name", .text "pay"), ("fargs", .text "fee")]⟩,
    ⟨"step 2", 2, "Stub", [("stub_name", .text "end function"), ("func_name", .text "pay")]⟩,
    ⟨"step 3", 3, "Call Function", [("fname", .text "pay")]⟩,
    ⟨"step 4", 4, "Use Skill", [("skill_path", .text "/web/"), ("skill_name", .text "cart")]⟩]

/-- The library with the skills that `orderingDocument` calls. -/
def shopLibrary : SkillLibrary := (SkillLibrary.empty.insert cartDocument).insert shipDocument

/-- The program of `orderingDocument`. -/
def orderingProgram : Program where
  name := "main"
  skid := ""
  instructions :=
    #[⟨⟨"main", 1, false⟩, .callFunction "pay" 5 "sum" "" ""⟩,
      ⟨⟨"main", 2, false⟩, .useSkill "web/cart" 4 "" ""⟩,
      ⟨⟨"main", 3, false⟩, .overloadSkill "web/cart" 4 "" ""⟩, ⟨⟨"main", 3, true⟩, .finish⟩,
      ⟨⟨"web/cart", 1, false⟩, .goto 6 none⟩,
      ⟨⟨"web/cart", 2, false⟩, .stub (.endFunction "pay")⟩,
      ⟨⟨"web/cart", 3, false⟩, .useSkill "main" 0 "" ""⟩,
      ⟨⟨"web/cart", 4, false⟩, .useSkill "web/ship" 9 "" ""⟩,
      ⟨⟨"web/cart", 4, true⟩, .stub (.endSkill "web/cart")⟩,
      ⟨⟨"web/ship", 1, false⟩, .goto 11 none⟩,
      ⟨⟨"web/ship", 2, false⟩, .stub (.endFunction "pay")⟩,
      ⟨⟨"web/ship", 3, false⟩, .callFunction "pay" 10 "fee" "" ""⟩,
      ⟨⟨"web/ship", 4, false⟩, .useSkill "web/cart" 4 "" ""⟩,
      ⟨⟨"web/ship", 4, true⟩, .stub (.endSkill "web/ship")⟩]
  functions := [("pay", 5)]
  skills := [("main", 0), ("web/cart", 4), ("web/ship", 9)]
  handlers := []
  documents := [⟨"main", 0, 4⟩, ⟨"web/cart", 4, 9⟩, ⟨"web/ship", 9, 14⟩]

theorem resolve_orderingDocument : resolve orderingDocument shopLibrary = .ok orderingProgram :=
  resolve_of_sorted rfl (by decide) (by decide) (by decide)

theorem shopLibrary_orderly : shopLibrary.Orderly :=
  (SkillLibrary.Orderly.empty.insert (by decide)).insert (by decide)

theorem asksPlainly_ordering : AsksPlainly orderingDocument shopLibrary :=
  asksPlainly_of_calls (by decide) (by decide)

theorem resolve_covers_reachable_ordering : ∃ taken,
    orderingProgram.Partitioned orderingDocument ∧
    orderingProgram.Written (orderingDocument :: taken) ∧
    (∀ doc, Reaches orderingDocument shopLibrary doc ↔ doc ∈ orderingDocument :: taken) ∧
    taken.map (·.name) = ["web/cart", "web/ship"] ∧
    (orderingProgram.instructions.toList.map (·.address)).Nodup := by
  obtain ⟨taken, hparts, hwritten, hreaches, honce⟩ :=
    (resolve_covers_reachable (by decide) shopLibrary_orderly).2 _ resolve_orderingDocument
  exact ⟨taken, hparts, hwritten, hreaches, (List.cons.inj hwritten.names).2.symm,
    (honce asksPlainly_ordering).2⟩

/-- A document that calls one skill by two keys, the second with a slash at its end. -/
def slashingDocument : SkillDocument where
  name := "main"
  header := .empty
  steps := [⟨"step 1", 1, "Use Skill", [("skill_name", .text "sub")]⟩,
    ⟨"step 2", 2, "Use Skill", [("skill_path", .text "sub"), ("skill_name", .text "")]⟩]

def subLibrary : SkillLibrary :=
  SkillLibrary.empty.insert ⟨"sub", .empty, [⟨"step 1", 1, "Halt", []⟩]⟩

/-- The program of `slashingDocument`. -/
def slashingProgram : Program where
  name := "main"
  skid := ""
  instructions :=
    #[⟨⟨"main", 1, false⟩, .useSkill "sub" 3 "" ""⟩, ⟨⟨"main", 2, false⟩, .useSkill "sub/" 3 "" ""⟩,
      ⟨⟨"main", 2, true⟩, .finish⟩, ⟨⟨"sub", 1, false⟩, .action "Halt" []⟩,
      ⟨⟨"sub", 1, true⟩, .stub (.endSkill "sub")⟩, ⟨⟨"sub", 1, false⟩, .action "Halt" []⟩,
      ⟨⟨"sub", 1, true⟩, .stub (.endSkill "sub")⟩]
  functions := []
  skills := [("main", 0), ("sub", 3), ("sub/", 3)]
  handlers := []
  documents := [⟨"main", 0, 3⟩, ⟨"sub", 3, 5⟩, ⟨"sub", 5, 7⟩]

/-- A key with a slash at its end brings its document into the program once more. -/
theorem not_covers_once : ¬∀ main library p, main.Numbered → SkillLibrary.Orderly library →
    resolve main library = .ok p →
    (p.documents.map (·.name)).Nodup ∧ (p.instructions.toList.map (·.address)).Nodup := by
  intro h
  have hresolve : resolve slashingDocument subLibrary = .ok slashingProgram :=
    resolve_of_sorted rfl (by decide) (by decide) (by decide)
  have honce := h slashingDocument subLibrary slashingProgram (by decide)
    (SkillLibrary.Orderly.empty.insert (by decide)) hresolve
  exact absurd honce.1 (by decide)

end Deskhand
