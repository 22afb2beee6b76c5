import Mathlib.Data.List.DropRight
import Deskhand.Proofs.Layout

/-!
# Gathering documents

Taking up what is called goes on until nothing is left to be taken up (`Draft.Gathers`): the bound of
`ofDocuments` is never what ends it (`Draft.gathers_ofDocuments`), since every document is taken up
for a key that was not looked up before, and there are no more keys than steps. What has been taken
up is what has been reached (`Draft.Gathering`), and in the end nothing that can be reached is left
out (`Draft.gathered_of_ofDocuments`).
-/

namespace Deskhand

/-! ## Libraries -/

theorem dropWhile_of_isPrefix {α : Type} {p : α → Bool} {l l' : List α} (h : l <+: l')
    (hl' : l'.dropWhile p = l') : l.dropWhile p = l := by
  obtain ⟨rest, rfl⟩ := h
  cases l with
  | nil => rfl
  | cons a l =>
    have ha : ¬p a = true := List.dropWhile_eq_self_iff.1 hl' (Nat.succ_pos _)
    exact List.dropWhile_cons_of_neg ha

theorem Text.trimMatches_trimMatches (c : Char) (s : String) :
    trimMatches c (trimMatches c s) = trimMatches c s := by
  have heq : ∀ t : String, trimMatches c t =
      String.ofList ((t.toList.dropWhile (· == c)).rdropWhile (· == c)) := fun _ => rfl
  have hstart := dropWhile_of_isPrefix
    (List.rdropWhile_prefix (· == c) (s.toList.dropWhile (· == c))) (List.dropWhile_idempotent _ _)
  rw [heq, heq s, String.toList_ofList, hstart, List.rdropWhile_idempotent]

/-- Every document of a library stands under its own name, with its steps in order. -/
structure SkillLibrary.Orderly (library : SkillLibrary) : Prop where
  named : ∀ name doc, library.skills.get? name = some doc → doc.name = name
  numbered : ∀ name doc, library.skills.get? name = some doc → doc.Numbered

theorem SkillLibrary.Orderly.empty : SkillLibrary.empty.Orderly := ⟨nofun, nofun⟩

theorem SkillLibrary.Orderly.insert {library : SkillLibrary} (h : library.Orderly)
    {doc : SkillDocument} (hdoc : doc.Numbered) : (library.insert doc).Orderly := by
  have hcases : ∀ name other, (library.insert doc).skills.get? name = some other →
      doc.name = name ∧ other = doc ∨ library.skills.get? name = some other := by
    intro name other hget
    by_cases hname : name = doc.name
    · subst hname
      rw [SkillLibrary.insert, Entries.get?_put_self] at hget
      exact .inl ⟨rfl, (Option.some.inj hget).symm⟩
    · rw [SkillLibrary.insert, Entries.get?_put_of_ne doc _ hname] at hget
      exact .inr hget
  constructor
  · intro name other hget
    rcases hcases name other hget with ⟨hname, rfl⟩ | hget
    · exact hname
    · exact h.named name other hget
  · intro name other hget
    rcases hcases name other hget with ⟨-, rfl⟩ | hget
    · exact hdoc
    · exact h.numbered name other hget

/-- A document that a library gives for a key has that key as its name, without the slashes around
it. -/
theorem SkillLibrary.Orderly.name_of_get? {library : SkillLibrary} (h : library.Orderly)
    {key : String} {doc : SkillDocument} (hget : library.get? key = some doc) :
    doc.name = Text.trimMatches '/' key := h.named _ doc hget

/-- A document that a library gives for a key is the one that it gives for its name. -/
theorem SkillLibrary.Orderly.get?_name {library : SkillLibrary} (h : library.Orderly)
    {key : String} {doc : SkillDocument} (hget : library.get? key = some doc) :
    library.get? doc.name = some doc := by
  rw [h.name_of_get? hget]
  unfold SkillLibrary.get? at hget ⊢
  rwa [Text.trimMatches_trimMatches]

/-! ## What can be reached -/

/-- The document means itself by the key: it is its name, or the name in its header. -/
def SkillDocument.AnswersTo (doc : SkillDocument) (key : String) : Prop :=
  key = doc.name ∨ doc.header.name ≠ "" ∧ key = doc.header.name

instance (doc : SkillDocument) (key : String) : Decidable (doc.AnswersTo key) :=
  inferInstanceAs (Decidable (_ ∨ _))

/-- A document is reached from the main one over calls. A key that the main document answers to means
the main document, which is reached anyway. -/
inductive Reaches (main : SkillDocument) (library : SkillLibrary) : SkillDocument → Prop
  | main : Reaches main library main
  | call {doc callee : SkillDocument} {key : String} (h : Reaches main library doc)
    (hkey : key ∈ doc.calls) (hmain : ¬main.AnswersTo key) (hget : library.get? key = some callee) :
    Reaches main library callee

/-- Every key that the library is asked for is free of slashes at its ends. -/
def AsksPlainly (main : SkillDocument) (library : SkillLibrary) : Prop :=
  ∀ doc, Reaches main library doc → ∀ key ∈ doc.calls, ¬main.AnswersTo key →
    Text.trimMatches '/' key = key

theorem asksPlainly_of_calls {main : SkillDocument} {library : SkillLibrary}
    (hmain : ∀ key ∈ main.calls, Text.trimMatches '/' key = key)
    (hlibrary : ∀ e ∈ library.skills, ∀ key ∈ e.2.calls, Text.trimMatches '/' key = key) :
    AsksPlainly main library := by
  intro doc hdoc key hkey _
  cases hdoc with
  | main => exact hmain key hkey
  | call _ _ _ hget => exact hlibrary _ (Entries.mem_of_get? hget) key hkey

namespace Draft

/-! ## The bound is never reached -/

/-- Taking up the documents that are called, without a bound on how many they are. -/
inductive Gathers (library : SkillLibrary) :
    (seen queue : List String) → Draft → Except SkillFault Draft → Prop
  | done {seen : List String} {d : Draft} : Gathers library seen [] d (.ok d)
  | skip {seen queue : List String} {key : String} {d : Draft} {r : Except SkillFault Draft}
    (hkey : key ∈ seen) (rest : Gathers library seen queue d r) :
    Gathers library seen (key :: queue) d r
  | missing {seen queue : List String} {key : String} {d : Draft} (hkey : key ∉ seen)
    (hget : library.get? key = none) :
    Gathers library seen (key :: queue) d (.error (.missingSkill key))
  | fault {seen queue : List String} {key : String} {doc : SkillDocument} {d : Draft}
    {e : SkillFault} (hkey : key ∉ seen) (hget : library.get? key = some doc)
    (hpush : d.pushDocument doc (.stub (.endSkill doc.name)) = .error e) :
    Gathers library seen (key :: queue) d (.error e)
  | take {seen queue keys : List String} {key : String} {doc : SkillDocument} {d d' : Draft}
    {r : Except SkillFault Draft} (hkey : key ∉ seen) (hget : library.get? key = some doc)
    (hpush : d.pushDocument doc (.stub (.endSkill doc.name)) = .ok (d', keys))
    (rest : Gathers library (seen ++ [key, doc.name]) (queue ++ keys)
      { d' with skills := d'.skills.putNew key ((d'.skills.get? doc.name).getD 0) } r) :
    Gathers library seen (key :: queue) d r

/-- How many of the keys have not been looked up. -/
def unseen (keys seen : List String) : Nat := (keys.filter (· ∉ seen)).length

theorem unseen_lt {keys seen more : List String} {key : String} (hkey : key ∈ keys)
    (hnew : key ∉ seen) (hmore : key ∈ more) : unseen keys (seen ++ more) < unseen keys seen := by
  have htwice : keys.filter (· ∉ seen ++ more) = (keys.filter (· ∉ seen)).filter (· ∉ more) := by
    rw [List.filter_filter]
    congr 1
    funext k
    simp [Bool.and_comm]
  unfold unseen
  rw [htwice]
  refine List.length_filter_lt_length_iff_exists.2 ⟨key, List.mem_filter.2 ⟨hkey, ?_⟩, ?_⟩
  · simpa using hnew
  · simpa using hmore

theorem pushDocument_keys {doc : SkillDocument} {last : Op} {d d' : Draft} {keys : List String}
    (h : d.pushDocument doc last = .ok (d', keys)) : keys = doc.calls := by
  obtain ⟨⟨e, table, keys'⟩, he, h⟩ := bind_eq_ok h
  cases h
  exact (pushSteps_extends _ _ _ he).2

/-- A bound above the number of keys that have not been looked up is not reached. -/
theorem gathers_pushCalled {library : SkillLibrary} {all : List String}
    (hall : ∀ name doc, library.skills.get? name = some doc → ∀ key ∈ doc.calls, key ∈ all)
    (fuel : Nat) {seen queue : List String} (d : Draft) (hqueue : ∀ key ∈ queue, key ∈ all)
    (hfuel : unseen all seen < fuel) :
    Gathers library seen queue d (pushCalled library fuel seen queue d) := by
  induction fuel generalizing seen queue d with
  | zero => exact absurd hfuel (Nat.not_lt_zero _)
  | succ fuel ih =>
    -- the keys at the front that need not be looked up are skipped one by one
    induction queue with
    | nil => exact .done
    | cons key queue ihqueue =>
      obtain ⟨hkey, hqueue⟩ := List.forall_mem_cons.1 hqueue
      by_cases hseen : key ∈ seen
      · have hdrop : (key :: queue).dropWhile (seen.contains ·) =
            queue.dropWhile (seen.contains ·) :=
          List.dropWhile_cons_of_pos (by simpa using hseen)
        have hrest := Gathers.skip hseen (ihqueue hqueue)
        unfold pushCalled at hrest ⊢
        rwa [hdrop]
      · have hdrop : (key :: queue).dropWhile (seen.contains ·) = key :: queue :=
          List.dropWhile_cons_of_neg (by simpa using hseen)
        unfold pushCalled
        rw [hdrop]
        dsimp only
        cases hget : library.get? key with
        | none => exact .missing hseen hget
        | some doc =>
          dsimp only
          cases hpush : d.pushDocument doc (.stub (.endSkill doc.name)) with
          | error e => exact .fault hseen hget hpush
          | ok result =>
            obtain ⟨d', keys⟩ := result
            refine .take hseen hget hpush (ih _ (fun k hk => ?_) ?_)
            · rcases List.mem_append.1 hk with hk | hk
              · exact hqueue k hk
              · rw [pushDocument_keys hpush] at hk
                exact hall _ doc hget k hk
            · have hless : unseen all (seen ++ [key, doc.name]) < unseen all seen :=
                unseen_lt hkey hseen List.mem_cons_self
              omega

/-- The keys of all documents are no more than their steps. -/
theorem length_calls_le (skills : Entries SkillDocument) (n : Nat) :
    n + (skills.flatMap (·.2.calls)).length ≤
      skills.foldl (fun n skill => n + skill.2.steps.length) n := by
  induction skills generalizing n with
  | nil => exact Nat.le_refl n
  | cons skill rest ih =>
    have hcalls : skill.2.calls.length ≤ skill.2.steps.length := List.length_filterMap_le _ _
    have hrest := ih (n + skill.2.steps.length)
    rw [List.flatMap_cons, List.length_append, List.foldl_cons]
    omega

/-- The name of a document, and the one in its header if it has one. -/
def mainNames (main : SkillDocument) : List String :=
  main.name :: if main.header.name = "" then [] else [main.header.name]

theorem mem_mainNames {main : SkillDocument} {key : String} :
    key ∈ mainNames main ↔ main.AnswersTo key := by
  unfold mainNames SkillDocument.AnswersTo
  split
  · next h => simp [h]
  · next h => simp [h]

/-- A draft with the main document, which its header may name too. -/
def titled (main : SkillDocument) (d : Draft) : Draft :=
  if main.header.name = "" then d else { d with skills := d.skills.putNew main.header.name 0 }

/-- Gathering goes on from the main document until nothing that it calls is left. -/
theorem gathers_ofDocuments {main : SkillDocument} (library : SkillLibrary) {d : Draft}
    {keys : List String} (h : empty.pushDocument main .finish = .ok (d, keys)) :
    Gathers library (mainNames main) keys (d.titled main) (ofDocuments main library) := by
  let all := main.calls ++ library.skills.flatMap (·.2.calls)
  unfold ofDocuments
  rw [h]
  have hall : ∀ name doc, library.skills.get? name = some doc → ∀ key ∈ doc.calls, key ∈ all :=
    fun name doc hget key hkey =>
      List.mem_append_right _ (List.mem_flatMap.2 ⟨(name, doc), Entries.mem_of_get? hget, hkey⟩)
  refine gathers_pushCalled hall _ _ (fun key hkey => ?_) ?_
  · rw [pushDocument_keys h] at hkey
    exact List.mem_append_left _ hkey
  · have hfilter : unseen all (mainNames main) ≤ all.length := List.length_filter_le _ _
    have hmain : main.calls.length ≤ main.steps.length := List.length_filterMap_le _ _
    have hlibrary := length_calls_le library.skills main.steps.length
    have hlength : all.length = main.calls.length + (library.skills.flatMap (·.2.calls)).length :=
      List.length_append
    omega

/-! ## What is taken up -/

/-- What holds while documents are taken up: `taken` are those that were taken up behind the main
one, each with the key that it was looked up by. -/
structure Gathering (main : SkillDocument) (library : SkillLibrary) (seen queue : List String)
    (taken : List (String × SkillDocument)) (d : Draft) : Prop where
  holds : d.Holds (main :: taken.map (·.2))
  seen_iff : ∀ name, name ∈ seen ↔
    main.AnswersTo name ∨ ∃ t ∈ taken, name = t.1 ∨ name = t.2.name
  asked : ∀ t ∈ taken, library.get? t.1 = some t.2
  /-- No document is looked up by a key or a name that was there before. -/
  fresh : taken.Pairwise fun a b => b.1 ≠ a.1 ∧ b.1 ≠ a.2.name
  /-- A key that a document was looked up by is called, and is no name of the main document. -/
  called : ∀ t ∈ taken, ¬main.AnswersTo t.1 ∧ ∃ doc, Reaches main library doc ∧ t.1 ∈ doc.calls
  queued : ∀ key ∈ queue, ∃ doc, Reaches main library doc ∧ key ∈ doc.calls
  closed : ∀ doc ∈ main :: taken.map (·.2), ∀ key ∈ doc.calls, key ∈ seen ∨ key ∈ queue
  /-- The names of the main document lead to its beginning. -/
  names : ∀ name, main.AnswersTo name → d.skills.get? name = some 0
  unnamed : ∀ name, name ∉ seen → d.skills.get? name = none
  /-- The name of a document that was looked up by it leads to its beginning. -/
  entries : ∀ (k : Nat) (t : String × SkillDocument), taken[k]? = some t → t.1 = t.2.name →
    d.skills.get? t.1 = some (layout ((main :: taken.map (·.2)).take (k + 1))).length

section Gathering

variable {main : SkillDocument} {library : SkillLibrary} {seen queue keys : List String}
  {taken : List (String × SkillDocument)} {key : String} {doc : SkillDocument} {d d' : Draft}

theorem Gathering.begin (h : empty.pushDocument main .finish = .ok (d, keys)) :
    Gathering main library (mainNames main) keys [] (d.titled main) := by
  obtain ⟨hholds, rfl, hskills⟩ := Holds.empty.pushDocument rfl h
  have hget : ∀ name, (d.titled main).skills.get? name =
      if main.AnswersTo name then some 0 else none := by
    intro name
    unfold titled SkillDocument.AnswersTo
    split
    · next htitle => simp [hskills, Entries.get?_putNew, empty, htitle]
    · next htitle =>
      by_cases hname : name = main.name <;>
        simp [hskills, Entries.get?_putNew, empty, htitle, hname]
  refine ⟨?_, fun name => ?_, nofun, .nil, nofun, ?_, ?_, ?_, ?_, nofun⟩
  · unfold titled
    split
    · exact hholds
    · exact hholds.skills _
  · simp [mem_mainNames]
  · exact fun key hkey => ⟨main, .main, hkey⟩
  · intro doc hdoc key hkey
    obtain rfl := List.mem_singleton.1 hdoc
    exact .inr hkey
  · intro name hname
    rw [hget, if_pos hname]
  · intro name hname
    rw [hget, if_neg (mt mem_mainNames.2 hname)]

theorem Gathering.reached (h : Gathering main library seen queue taken d) {doc : SkillDocument}
    (hdoc : doc ∈ main :: taken.map (·.2)) : Reaches main library doc := by
  rcases List.mem_cons.1 hdoc with rfl | hdoc
  · exact .main
  · obtain ⟨t, ht, rfl⟩ := List.mem_map.1 hdoc
    obtain ⟨hmain, caller, hcaller, hkey⟩ := h.called t ht
    exact hcaller.call hkey hmain (h.asked t ht)

theorem Gathering.skip (h : Gathering main library seen (key :: queue) taken d)
    (hkey : key ∈ seen) : Gathering main library seen queue taken d where
  holds := h.holds
  seen_iff := h.seen_iff
  asked := h.asked
  fresh := h.fresh
  called := h.called
  queued k hk := h.queued k (List.mem_cons_of_mem _ hk)
  closed doc hdoc k hk := by
    rcases h.closed doc hdoc k hk with hin | hin
    · exact .inl hin
    · rcases List.mem_cons.1 hin with rfl | hin
      · exact .inl hkey
      · exact .inr hin
  names := h.names
  unnamed := h.unnamed
  entries := h.entries

/-- Names lead to the beginnings of the documents that were looked up by them, also when one more is
taken up, if no name is lost and its own one leads to the end of the others. -/
theorem Gathering.entries_concat (h : Gathering main library seen queue taken d) {skills : Entries Nat}
    (hkept : ∀ name index, d.skills.get? name = some index → skills.get? name = some index)
    (hlast : key = doc.name → skills.get? key = some (layout (main :: taken.map (·.2))).length)
    {k : Nat} {t : String × SkillDocument} (ht : (taken ++ [(key, doc)])[k]? = some t)
    (hname : t.1 = t.2.name) : skills.get? t.1 =
      some (layout ((main :: taken.map (·.2) ++ [doc]).take (k + 1))).length := by
  have hlength : (main :: taken.map (·.2)).length = taken.length + 1 := by simp
  obtain ⟨hlt, -⟩ := List.getElem?_eq_some_iff.1 ht
  rw [List.length_append, List.length_singleton] at hlt
  rw [List.take_append_of_le_length (by omega)]
  rcases Nat.lt_succ_iff_lt_or_eq.1 hlt with hlt | rfl
  · rw [List.getElem?_append_left hlt] at ht
    exact hkept _ _ (h.entries k t ht hname)
  · rw [List.getElem?_concat_length] at ht
    cases ht
    rw [List.take_of_length_le (Nat.le_of_eq hlength)]
    exact hlast hname

/-- What the documents call has been seen or is queued, also when one more is taken up. -/
theorem Gathering.closed_concat (h : Gathering main library seen (key :: queue) taken d)
    (more : List String) {caller : SkillDocument} (hcaller : caller ∈ main :: taken.map (·.2) ++ [doc])
    {called : String} (hcalled : called ∈ caller.calls) :
    called ∈ seen ++ key :: more ∨ called ∈ queue ++ doc.calls := by
  rcases List.mem_append.1 hcaller with hcaller | hcaller
  · rcases h.closed caller hcaller called hcalled with hseen | hqueued
    · exact .inl (List.mem_append_left _ hseen)
    · rcases List.mem_cons.1 hqueued with rfl | hqueued
      · exact .inl (List.mem_append_right _ List.mem_cons_self)
      · exact .inr (List.mem_append_left _ hqueued)
  · obtain rfl := List.mem_singleton.1 hcaller
    exact .inr (List.mem_append_right _ hcalled)

/-- A document that is taken up goes behind the others, and what it calls behind what is queued. -/
theorem Gathering.take (h : Gathering main library seen (key :: queue) taken d) (hkey : key ∉ seen)
    (hget : library.get? key = some doc)
    (hpush : d.pushDocument doc (.stub (.endSkill doc.name)) = .ok (d', keys)) :
    Gathering main library (seen ++ [key, doc.name]) (queue ++ keys) (taken ++ [(key, doc)])
      { d' with skills := d'.skills.putNew key ((d'.skills.get? doc.name).getD 0) } := by
  obtain ⟨hholds, rfl, hskills⟩ := h.holds.pushDocument (if_neg (Nat.succ_ne_zero _)).symm hpush
  have hdocs : main :: (taken ++ [(key, doc)]).map (·.2) = main :: taken.map (·.2) ++ [doc] := by
    simp
  have hcalled : ¬main.AnswersTo key ∧ ∃ caller, Reaches main library caller ∧ key ∈ caller.calls :=
    ⟨fun hname => hkey ((h.seen_iff key).2 (.inl hname)), h.queued key List.mem_cons_self⟩
  have hreached : Reaches main library doc := by
    obtain ⟨hmain, caller, hcaller, hin⟩ := hcalled
    exact hcaller.call hin hmain hget
  have hkept : ∀ name index, d.skills.get? name = some index →
      (d'.skills.putNew key ((d'.skills.get? doc.name).getD 0)).get? name = some index := by
    intro name index hname
    refine Entries.get?_putNew_of_some _ ?_
    rw [hskills]
    exact Entries.get?_putNew_of_some _ hname
  refine
    { holds := hdocs ▸ hholds.skills _
      seen_iff := fun name => ?seen_iff
      asked := List.forall_mem_append.2 ⟨h.asked, List.forall_mem_singleton.2 hget⟩
      fresh := List.pairwise_append.2 ⟨h.fresh, List.pairwise_singleton _ _, fun t ht =>
        List.forall_mem_singleton.2 ⟨?fresh_key, ?fresh_name⟩⟩
      called := List.forall_mem_append.2 ⟨h.called, List.forall_mem_singleton.2 hcalled⟩
      queued := List.forall_mem_append.2 ⟨fun k hk => h.queued k (List.mem_cons_of_mem _ hk),
        fun _ hk => ⟨doc, hreached, hk⟩⟩
      closed := fun caller hcaller _ hk => h.closed_concat [doc.name] (hdocs ▸ hcaller) hk
      names := fun name hname => hkept name 0 (h.names name hname)
      unnamed := fun name hname => ?unnamed
      entries := fun k t ht hname => hdocs ▸ h.entries_concat hkept ?last ht hname }
  case seen_iff =>
    simp only [List.mem_append, h.seen_iff name, List.mem_cons, List.not_mem_nil, or_false]
    constructor
    · rintro ((hmain | ⟨t, ht, hname⟩) | hname)
      · exact .inl hmain
      · exact .inr ⟨t, .inl ht, hname⟩
      · exact .inr ⟨(key, doc), .inr rfl, hname⟩
    · rintro (hmain | ⟨t, ht | rfl, hname⟩)
      · exact .inl (.inl hmain)
      · exact .inl (.inr ⟨t, ht, hname⟩)
      · exact .inr hname
  case fresh_key =>
    rintro rfl
    exact hkey ((h.seen_iff _).2 (.inr ⟨t, ht, .inl rfl⟩))
  case fresh_name => exact fun heq => hkey ((h.seen_iff _).2 (.inr ⟨t, ht, .inr heq⟩))
  case unnamed =>
    simp only [List.mem_append, List.mem_cons, List.not_mem_nil, or_false, not_or] at hname
    obtain ⟨hold, hnekey, hnename⟩ := hname
    rw [Entries.get?_putNew_of_ne _ _ hnekey, hskills, Entries.get?_putNew_of_ne _ _ hnename]
    exact h.unnamed name hold
  case last =>
    intro heq
    refine Entries.get?_putNew_of_some _ ?_
    rw [hskills, heq, Entries.get?_putNew, h.unnamed _ (heq ▸ hkey), if_pos rfl]
    rfl

/-- Documents are taken up until nothing that was called is left. -/
theorem Gathers.gathering {r : Except SkillFault Draft} (hr : Gathers library seen queue d r)
    (hd : Gathering main library seen queue taken d) (h : r = .ok d') :
    ∃ seen' taken', Gathering main library seen' [] taken' d' := by
  induction hr generalizing taken with
  | done =>
    cases h
    exact ⟨_, taken, hd⟩
  | skip hkey _ ih => exact ih (hd.skip hkey) h
  | missing => cases h
  | fault => cases h
  | take hkey hget hpush _ ih => exact ih (hd.take hkey hget hpush) h

/-- In the end, what the library gives for a key that is called has been taken up, for this key or
under it as its name. -/
theorem Gathering.exists_taken (h : Gathering main library seen [] taken d)
    (hlibrary : library.Orderly) {caller : SkillDocument} (hcaller : caller ∈ main :: taken.map (·.2))
    (hkey : key ∈ caller.calls) (hmain : ¬main.AnswersTo key) :
    ∃ t ∈ taken, (key = t.1 ∨ key = t.2.name) ∧ library.get? key = some t.2 := by
  have hseen := (h.closed caller hcaller key hkey).resolve_right List.not_mem_nil
  obtain ⟨t, ht, hname⟩ := ((h.seen_iff key).1 hseen).resolve_left hmain
  refine ⟨t, ht, hname, ?_⟩
  rcases hname with rfl | rfl
  · exact h.asked t ht
  · exact hlibrary.get?_name (h.asked t ht)

/-- Nothing that can be reached is left out in the end. -/
theorem Gathering.reaches_iff (h : Gathering main library seen [] taken d)
    (hlibrary : library.Orderly) {doc : SkillDocument} :
    Reaches main library doc ↔ doc ∈ main :: taken.map (·.2) := by
  refine ⟨fun hreach => ?_, h.reached⟩
  induction hreach with
  | main => exact List.mem_cons_self
  | @call caller callee key _ hkey hmain hget ih =>
    obtain ⟨t, ht, -, heq⟩ := h.exists_taken hlibrary ih hkey hmain
    rw [hget] at heq
    cases heq
    exact List.mem_cons_of_mem _ (List.mem_map_of_mem ht)

/-- If the library is asked for plain keys only, every document is taken up for its own name, which
is none of the main document. -/
theorem Gathering.named (h : Gathering main library seen queue taken d)
    (hlibrary : library.Orderly) (hplain : AsksPlainly main library) {t : String × SkillDocument}
    (ht : t ∈ taken) : t.1 = t.2.name ∧ ¬main.AnswersTo t.2.name := by
  obtain ⟨hmain, caller, hcaller, hkey⟩ := h.called t ht
  have hname : t.1 = t.2.name := by
    rw [hlibrary.name_of_get? (h.asked t ht), hplain caller hcaller t.1 hkey hmain]
  exact ⟨hname, hname ▸ hmain⟩

/-- If the library is asked for plain keys only, no two documents have one name. -/
theorem Gathering.distinct (h : Gathering main library seen queue taken d)
    (hlibrary : library.Orderly) (hplain : AsksPlainly main library) :
    ((main :: taken.map (·.2)).map (·.name)).Nodup := by
  refine List.pairwise_map.2 (List.pairwise_cons.2 ⟨fun doc hdoc heq => ?_, ?_⟩)
  · obtain ⟨t, ht, rfl⟩ := List.mem_map.1 hdoc
    exact (h.named hlibrary hplain ht).2 (.inl heq.symm)
  · refine List.pairwise_map.2 (h.fresh.imp_of_mem fun {a b} _ hb hne heq => hne.2 ?_)
    rw [(h.named hlibrary hplain hb).1, heq]

theorem gathered_of_ofDocuments (h : ofDocuments main library = .ok d) :
    ∃ seen taken, Gathering main library seen [] taken d := by
  have hmain := h
  unfold ofDocuments at hmain
  obtain ⟨⟨d₀, keys⟩, hpush, -⟩ := bind_eq_ok hmain
  exact (gathers_ofDocuments library hpush).gathering (.begin hpush) h

end Gathering

end Draft

end Deskhand
