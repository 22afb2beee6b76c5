import Deskhand.Proofs.Trees

/-!
# Changes of a tree

Whatever is done to a well-formed tree leaves it well formed: a path that something is made at leads
to a place where a directory is, or to a single name in one (`Files.Leads`), and a place is taken
away only if nothing is below it. So every tree that is made of the empty one is well formed.
-/

namespace Deskhand

namespace Files

variable {files files' : Files} {place : Place} {node : Node} {path : String}

/-! ## Where paths lead -/

/-- A directory is at the place, or it is a single name in a directory. -/
def Leads (place : Place) (files : Files) : Prop :=
  files.node? place = some .directory ∨ ∃ above name, place = above ++ [name] ∧
    Path.IsName name ∧ files.node? above = some .directory

theorem WellFormed.directory_dropLast (h : files.WellFormed)
    (hplace : files.node? place = some .directory) :
    files.node? place.dropLast = some .directory := by
  cases place using List.reverseRecOn with
  | nil => exact hplace
  | append_singleton above name =>
    rw [List.dropLast_concat]
    exact h.directory_above (List.cons_ne_nil _ _) hplace

theorem WellFormed.walk_leads (h : files.WellFormed) {start : Place} {names : List String}
    (hstart : files.Leads start) (hnames : ∀ name ∈ names, name ≠ ".." → Path.IsName name)
    (hwalk : files.walk start names = .ok place) : files.Leads place := by
  induction names generalizing start with
  | nil =>
    cases hwalk
    exact hstart
  | cons name rest ih =>
    obtain ⟨hname, hrest⟩ := List.forall_mem_cons.1 hnames
    unfold walk at hwalk
    split at hwalk
    · cases hwalk
    · cases hwalk
    · next hdirectory =>
      split at hwalk
      · exact ih (.inl (h.directory_dropLast hdirectory)) hrest hwalk
      · next hup => exact ih (.inr ⟨start, name, rfl, hname hup, hdirectory⟩) hrest hwalk

theorem WellFormed.locate_leads (h : files.WellFormed) (hlocate : files.locate path = .ok place) :
    files.Leads place := by
  unfold locate at hlocate
  split at hlocate
  · cases hlocate
  · refine h.walk_leads (.inl (node?_of_isTop ?_)) (fun _ => Path.isName_of_names) hlocate
    split
    · exact .inr rfl
    · exact .inl rfl

/-! ## What one change does to the other places -/

theorem find?_replace {nodes : List (Place × Node)} {other : Place}
    (h : other = place → place ∈ nodes.map (·.1)) :
    ((nodes.map fun e => if e.1 = place then (place, node) else e).find? (·.1 = other)).map (·.2) =
      if other = place then some node else (nodes.find? (·.1 = other)).map (·.2) := by
  induction nodes with
  | nil => rw [if_neg fun heq => List.not_mem_nil (h heq)]; rfl
  | cons e rest ih =>
    by_cases hother : other = place
    · subst hother
      by_cases he : e.1 = other
      · simp [he]
      · have hrest : other = other → other ∈ rest.map (·.1) := fun heq =>
          (List.mem_cons.1 (h heq)).resolve_left (Ne.symm he)
        simpa [he] using ih hrest
    · by_cases he : e.1 = place
      · simpa [he, hother, Ne.symm hother] using ih fun heq => absurd heq hother
      · by_cases hfound : e.1 = other
        · simp [hfound, hother]
        · simpa [he, hother, hfound] using ih fun heq => absurd heq hother

theorem node?_put (hplace : ¬IsTop place) (other : Place) :
    (files.put place node).node? other = if other = place then some node else files.node? other := by
  by_cases htop : IsTop other
  · have hne : other ≠ place := fun heq => hplace (heq ▸ htop)
    rw [if_neg hne, node?_of_isTop htop, node?_of_isTop htop]
  · have hfind : ∀ tree : Files, tree.node? other =
        (tree.nodes.find? (·.1 = other)).map (·.2) := fun _ => if_neg htop
    rw [hfind, hfind, put]
    split
    · next hany =>
      obtain ⟨e, he, hat⟩ := List.any_eq_true.1 hany
      exact find?_replace fun _ => of_decide_eq_true hat ▸ List.mem_map_of_mem he
    · next hany =>
      have hnone : files.nodes.find? (·.1 = place) = none :=
        List.find?_eq_none.2 fun e he hat => hany (List.any_eq_true.2 ⟨e, he, hat⟩)
      rw [List.find?_append]
      by_cases hother : other = place
      · subst hother
        simp [hnone]
      · simp [hother, Ne.symm hother]

theorem map_fst_put (place : Place) (node : Node) (files : Files) :
    (files.put place node).nodes.map (·.1) =
      if place ∈ files.nodes.map (·.1) then files.nodes.map (·.1)
      else files.nodes.map (·.1) ++ [place] := by
  have hany : files.nodes.any (·.1 = place) = true ↔ place ∈ files.nodes.map (·.1) := by
    simp [List.any_eq_true]
  unfold put
  simp only [hany]
  split
  · rw [List.map_map]
    refine List.map_congr_left fun e _ => ?_
    dsimp only [Function.comp]
    split
    · next h => exact h.symm
    · rfl
  · rw [List.map_append]
    rfl

theorem mem_map_fst_put {place other : Place} {node : Node} {files : Files}
    (h : other ∈ (files.put place node).nodes.map (·.1)) :
    other = place ∨ other ∈ files.nodes.map (·.1) := by
  rw [map_fst_put] at h
  split at h
  · exact .inr h
  · exact (List.mem_append.1 h).symm.imp_left List.mem_singleton.1

namespace WellFormed

/-- A file or a new directory may be put where a path leads, if no directory is there. -/
theorem put (h : files.WellFormed) (hleads : files.Leads place)
    (hnode : files.node? place ≠ some .directory) (node : Node) :
    (files.put place node).WellFormed := by
  obtain ⟨above, name, rfl, hname, habove⟩ := hleads.resolve_left hnode
  have hput : ∀ other, (files.put (above ++ [name]) node).node? other =
      if other = above ++ [name] then some node else files.node? other :=
    node?_put (not_isTop_concat hname)
  -- directories that others are in are still there
  have hkept : ∀ at_, files.node? at_ = some .directory →
      (files.put (above ++ [name]) node).node? at_ = some .directory := by
    intro at_ hat
    have hne : at_ ≠ above ++ [name] := by
      rintro rfl
      exact hnode hat
    rw [hput, if_neg hne]
    exact hat
  constructor
  · rw [map_fst_put]
    split
    · exact h.distinct
    · next hnew =>
      refine List.nodup_append.2 ⟨h.distinct, List.pairwise_singleton _ _, fun a ha b hb => ?_⟩
      rw [List.mem_singleton.1 hb]
      exact fun heq => hnew (heq ▸ ha)
  · intro e he
    rcases mem_map_fst_put (List.mem_map_of_mem he) with hplace | hold
    · exact ⟨above, name, hplace, hname, hkept above habove⟩
    · obtain ⟨old, hold, hplace⟩ := List.mem_map.1 hold
      obtain ⟨above', name', hplace', hname', habove'⟩ := h.placed old hold
      exact ⟨above', name', hplace ▸ hplace', hname', hkept above' habove'⟩

/-- What is not a directory may be taken away. -/
theorem erase (h : files.WellFormed) (hnode : files.node? place ≠ some .directory) :
    (files.erase place).WellFormed := by
  have hkept : ∀ at_, files.node? at_ = some .directory →
      (files.erase place).node? at_ = some .directory := by
    intro at_ hat
    have hne : at_ ≠ place := by
      rintro rfl
      exact hnode hat
    unfold node? at hat ⊢
    split
    · rfl
    · next htop =>
      rw [if_neg htop] at hat
      have hsame : (files.erase place).nodes.find? (·.1 = at_) = files.nodes.find? (·.1 = at_) := by
        unfold Files.erase
        rw [List.find?_filter]
        congr 1
        funext e
        by_cases he : e.1 = at_ <;> simp [he, hne]
      rw [hsame, hat]
  have hsub : (files.erase place).nodes.Sublist files.nodes := List.filter_sublist
  refine ⟨h.distinct.sublist (hsub.map _), fun e he => ?_⟩
  obtain ⟨above, name, hplace, hname, habove⟩ := h.placed e (hsub.subset he)
  exact ⟨above, name, hplace, hname, hkept above habove⟩

/-! ## Everything that is done to files -/

theorem empty : Files.empty.WellFormed := ⟨.nil, nofun⟩

theorem makeDirectory (h : files.WellFormed) (hmake : files.makeDirectory path = .ok files') :
    files'.WellFormed := by
  obtain ⟨place, hlocate, hmake⟩ := bind_eq_ok hmake
  split at hmake
  · cases hmake
  · next hnone =>
    cases hmake
    exact h.put (h.locate_leads hlocate) (by rw [hnone]; nofun) _

theorem makeAll (h : files.WellFormed) {above : List String}
    (hmake : files.makeAll above = .ok files') : files'.WellFormed := by
  induction above generalizing files files' with
  | nil => cases hmake
  | cons path above ih =>
    unfold Files.makeAll at hmake
    split at hmake
    · cases hmake
      exact h
    · split at hmake
      · next hone =>
        cases hmake
        exact h.makeDirectory hone
      · obtain ⟨middle, habove, hmake⟩ := bind_eq_ok hmake
        have hmiddle := ih h habove
        split at hmake
        · next hone =>
          cases hmake
          exact hmiddle.makeDirectory hone
        · split at hmake <;> cases hmake
          exact hmiddle
      · split at hmake <;> cases hmake
        exact h

theorem makeDirectories (h : files.WellFormed) (hmake : files.makeDirectories path = .ok files') :
    files'.WellFormed := h.makeAll hmake

theorem makeParent (h : files.WellFormed) (hmake : files.makeParent path = .ok files') :
    files'.WellFormed := by
  unfold Files.makeParent at hmake
  split at hmake
  · split at hmake
    · cases hmake
      exact h
    · exact h.makeDirectories hmake
  · cases hmake
    exact h

theorem change (h : files.WellFormed) {f : ByteArray → ByteArray}
    (hchange : files.change path f = .ok files') : files'.WellFormed := by
  obtain ⟨place, hlocate, hchange⟩ := bind_eq_ok hchange
  split at hchange
  · cases hchange
  · next hfile =>
    split at hchange
    · cases hchange
    · cases hchange
      exact h.put (h.locate_leads hlocate) (by rw [hfile]; nofun) _
  · next hnone =>
    split at hchange
    · cases hchange
    · cases hchange
      exact h.put (h.locate_leads hlocate) (by rw [hnone]; nofun) _

theorem write (h : files.WellFormed) {text : String} (hwrite : files.write path text = .ok files') :
    files'.WellFormed := h.change hwrite

theorem append (h : files.WellFormed) {text : String}
    (happend : files.append path text = .ok files') : files'.WellFormed := h.change happend

theorem remove (h : files.WellFormed) (hremove : files.remove path = .ok files') :
    files'.WellFormed := by
  obtain ⟨⟨place, node⟩, hfind, hremove⟩ := bind_eq_ok hremove
  cases node with
  | directory => cases hremove
  | file bytes =>
    cases hremove
    refine h.erase fun hdirectory => ?_
    obtain ⟨found, -, hfound⟩ := bind_eq_ok hfind
    split at hfound
    · cases hfound
    · cases hfound
    · next hfile =>
      split at hfound <;> cases hfound
      exact nomatch hfile.symm.trans hdirectory

end WellFormed

end Files

end Deskhand
