import Deskhand.Proofs.Fallible
import Deskhand.Record.Shape

/-!
# Records that were read

Every field of a record that was read has a value: what the reader of the field made of the entry of
its name, or what its absence means. A text that must be there, or is empty when it is absent, is the
text of the entry.
-/

namespace Deskhand.Shape

variable {name : String} {f : Field} {fields : List Field}

theorem read_of_readKnown {entries known : Entries Value} (h : readKnown fields entries = .ok known)
    (hf : fields.find? (·.name = name) = some f) {v : Value} (hv : known.get? name = some v) :
    ∃ given, entries.get? name = some given ∧ f.read given = .ok v := by
  induction entries generalizing known with
  | nil =>
    cases h
    cases hv
  | cons e rest ih =>
    obtain ⟨other, given⟩ := e
    unfold readKnown at h
    split at h
    · next hnone =>
      have hne : other ≠ name := by
        rintro rfl
        rw [hf] at hnone
        cases hnone
      rw [Entries.get?, if_neg hne]
      exact ih h hv
    · next g hg =>
      obtain ⟨read, hread, h⟩ := bind_eq_ok h
      obtain ⟨others, hothers, h⟩ := bind_eq_ok h
      cases h
      by_cases hname : other = name
      · subst hname
        rw [hf] at hg
        cases hg
        rw [Entries.get?, if_pos rfl] at hv ⊢
        cases hv
        exact ⟨given, rfl, hread⟩
      · rw [Entries.get?, if_neg hname] at hv ⊢
        exact ih hothers hv

/-- An entry with a field of its name is read. -/
theorem get?_eq_none_of_readKnown {entries known : Entries Value}
    (h : readKnown fields entries = .ok known) (hf : fields.find? (·.name = name) = some f)
    (hv : known.get? name = none) : entries.get? name = none := by
  induction entries generalizing known with
  | nil => rfl
  | cons e rest ih =>
    obtain ⟨other, given⟩ := e
    unfold readKnown at h
    split at h
    · next hnone =>
      have hne : other ≠ name := by
        rintro rfl
        rw [hf] at hnone
        cases hnone
      rw [Entries.get?, if_neg hne]
      exact ih h hv
    · obtain ⟨read, hread, h⟩ := bind_eq_ok h
      obtain ⟨others, hothers, h⟩ := bind_eq_ok h
      cases h
      by_cases hname : other = name
      · rw [Entries.get?, if_pos hname] at hv
        cases hv
      · rw [Entries.get?, if_neg hname] at hv ⊢
        exact ih hothers hv

theorem fill_cons (known : Entries Value) (f : Field) (rest : List Field) :
    fill known (f :: rest) = (known.get? f.name).elim f.whenAbsent .ok >>= fun v =>
      fill known rest >>= fun others => .ok ((f.name, v) :: others) := by
  rw [fill]
  cases Entries.get? f.name known <;> rfl

theorem get?_of_fill {known record : Entries Value} (h : fill known fields = .ok record)
    (hf : fields.find? (·.name = name) = some f) :
    ∃ v, record.get? name = some v ∧
      (known.get? name = some v ∨ known.get? name = none ∧ f.whenAbsent = .ok v) := by
  induction fields generalizing record with
  | nil => cases hf
  | cons g rest ih =>
    rw [fill_cons] at h
    obtain ⟨v, hv, h⟩ := bind_eq_ok h
    obtain ⟨others, hothers, h⟩ := bind_eq_ok h
    cases h
    by_cases hname : g.name = name
    · rw [List.find?_cons_of_pos (by simpa using hname)] at hf
      cases hf
      rw [Entries.get?, if_pos hname]
      refine ⟨v, rfl, ?_⟩
      rw [hname] at hv
      cases hknown : known.get? name with
      | none =>
        rw [hknown] at hv
        exact .inr ⟨rfl, hv⟩
      | some read =>
        rw [hknown] at hv
        cases hv
        exact .inl rfl
    · rw [List.find?_cons_of_neg (by simpa using hname)] at hf
      rw [Entries.get?, if_neg hname]
      exact ih hothers hf

/-- What a field of a record that was read comes from. -/
theorem get?_of_readEntries {shape : Shape} {entries record : Entries Value}
    (h : shape.readEntries entries = .ok record)
    (hf : shape.fields.find? (·.name = name) = some f) :
    ∃ v, record.get? name = some v ∧
      ((∃ given, entries.get? name = some given ∧ f.read given = .ok v) ∨
        entries.get? name = none ∧ f.whenAbsent = .ok v) := by
  obtain ⟨known, hknown, h⟩ := bind_eq_ok h
  obtain ⟨v, hv, hfrom⟩ := get?_of_fill h hf
  exact ⟨v, hv, hfrom.imp (read_of_readKnown hknown hf)
    fun habsent => ⟨get?_eq_none_of_readKnown hknown hf habsent.1, habsent.2⟩⟩

/-- A text that must be there is the text of the entry. -/
theorem text_of_readEntries {shape : Shape} {entries record : Entries Value}
    (h : shape.readEntries entries = .ok record)
    (hf : shape.fields.find? (·.name = name) = some (.text name)) :
    record.text name = entries.text name := by
  obtain ⟨v, hv, ⟨given, hgiven, hread⟩ | ⟨-, habsent⟩⟩ := get?_of_readEntries h hf
  · cases given with
    | text s =>
      cases hread
      simp [Entries.text, Entries.value, hv, hgiven]
    | _ => cases hread
  · cases habsent

/-- A text with a default is the text of the entry, or the default if there is no entry. -/
theorem text_of_textOr {default : String} {shape : Shape} {entries record : Entries Value}
    (h : shape.readEntries entries = .ok record)
    (hf : shape.fields.find? (·.name = name) = some (.textOr name default)) :
    record.text name = entries.text name ∨
      entries.get? name = none ∧ record.text name = default := by
  obtain ⟨v, hv, ⟨given, hgiven, hread⟩ | ⟨hnone, habsent⟩⟩ := get?_of_readEntries h hf
  · cases given with
    | text s =>
      cases hread
      exact .inl (by simp [Entries.text, Entries.value, hv, hgiven])
    | _ => cases hread
  · cases habsent
    exact .inr ⟨hnone, by simp [Entries.text, Entries.value, hv, Value.text?]⟩

/-- A text that is empty when it is absent is the text of the entry. -/
theorem text_of_textOrEmpty {shape : Shape} {entries record : Entries Value}
    (h : shape.readEntries entries = .ok record)
    (hf : shape.fields.find? (·.name = name) = some (.textOrEmpty name)) :
    record.text name = entries.text name := by
  rcases text_of_textOr h hf with htext | ⟨hnone, hempty⟩
  · exact htext
  · rw [hempty]
    simp [Entries.text, Entries.value, hnone, Value.text?]

end Deskhand.Shape
