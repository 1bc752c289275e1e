import SyntaxHighlight.Dictionary

/-! What a dictionary holds under a name after changes to it. -/
namespace SyntaxHighlight.Dictionary

variable {α β : Type}

section

variable {d : Dictionary α} {name : String} {value : α}

theorem mem_of_get? (h : d.get? name = some value) : (name, value) ∈ d.entries := by
  obtain ⟨before, after, hentries, -⟩ := List.lookup_eq_some_iff.1 h
  simp [hentries]

theorem mem_insert {entry : String × α} (h : entry ∈ (d.insert name value).entries) :
    entry = (name, value) ∨ entry ∈ d.entries := by
  simp only [insert, List.mem_append, List.mem_cons] at h
  obtain h | rfl | h := h
  · exact .inr (List.mem_filter.1 (List.takeWhile_subset _ h)).1
  · exact .inl rfl
  · exact .inr (List.mem_filter.1 (List.dropWhile_subset _ h)).1

theorem mem_erase {entry : String × α} (h : entry ∈ (d.erase name).entries) :
    entry ∈ d.entries := (List.mem_filter.1 h).1

end

theorem get?_insert (d : Dictionary α) (name : String) (value : α) :
    (d.insert name value).get? name = some value := by
  have hothers : ((d.entries.filter (·.1 ≠ name)).takeWhile (·.1 < name)).lookup name = none := by
    refine List.lookup_eq_none_iff.2 fun entry hentry ↦ ?_
    have hne := (List.mem_filter.1 (List.takeWhile_subset _ hentry)).2
    exact bne_iff_ne.2 (Ne.symm (of_decide_eq_true hne))
  rw [get?, insert, List.lookup_append, hothers, Option.none_or, List.lookup_cons_self]

theorem get?_erase_of_ne (d : Dictionary α) {name other : String} (hne : other ≠ name) :
    (d.erase name).get? other = d.get? other := by
  obtain ⟨entries⟩ := d
  simp only [get?, erase]
  induction entries with
  | nil => rfl
  | cons entry entries ih =>
    obtain ⟨key, kept⟩ := entry
    by_cases hkey : key = name
    · have hother : (other == key) = false := beq_false_of_ne (hkey ▸ hne)
      rw [List.filter_cons_of_neg (by simp [hkey]), ih, List.lookup_cons, hother]
    · simp only [List.filter_cons, hkey, ne_eq, not_false_eq_true, decide_true, if_true,
        List.lookup_cons, ih]

theorem get?_insert_of_ne (d : Dictionary α) {name other : String} (hne : other ≠ name)
    (value : α) : (d.insert name value).get? other = d.get? other := by
  have hname : (other == name) = false := beq_false_of_ne hne
  rw [← get?_erase_of_ne d hne]
  simp only [get?, insert, erase]
  rw [List.lookup_append, List.lookup_cons, hname, ← List.lookup_append,
    List.takeWhile_append_dropWhile]

theorem get?_filter {d : Dictionary α} {p : α → Bool} {name : String} {value : α}
    (h : d.get? name = some value) (hp : p value = true) : (d.filter p).get? name = some value := by
  obtain ⟨before, after, hentries, hbefore⟩ := List.lookup_eq_some_iff.1 h
  refine List.lookup_eq_some_iff.2 ⟨before.filter fun e ↦ p e.2, after.filter fun e ↦ p e.2, ?_, ?_⟩
  · simp [filter, hentries, hp]
  · exact fun entry hentry ↦ hbefore entry (List.mem_filter.1 hentry).1

theorem get?_eq_none_iff {d : Dictionary α} {name : String} :
    d.get? name = none ↔ name ∉ d.names := by
  simp only [get?, List.lookup_eq_none_iff, names, List.mem_map, bne_iff_ne]
  exact ⟨fun h ⟨entry, hentry, hname⟩ ↦ h entry hentry hname.symm,
    fun h entry hentry hname ↦ h ⟨entry, hentry, hname.symm⟩⟩

/-- One value put under several names. -/
theorem get?_foldl_insert (key : β → String) (value : α) (xs : List β) (d : Dictionary α)
    (name : String) :
    (xs.foldl (fun d x ↦ d.insert (key x) value) d).get? name =
      if name ∈ xs.map key then some value else d.get? name := by
  induction xs generalizing d with
  | nil => rfl
  | cons x xs ih =>
    rw [List.foldl_cons, ih, List.map_cons]
    by_cases hname : name = key x
    · subst hname
      simp [get?_insert]
    · simp [get?_insert_of_ne d hname, hname]

def map (f : α → β) (d : Dictionary α) : Dictionary β := ⟨d.entries.map fun e ↦ (e.1, f e.2)⟩

theorem get?_map (f : α → β) (d : Dictionary α) (name : String) :
    (d.map f).get? name = (d.get? name).map f := by
  obtain ⟨entries⟩ := d
  simp only [get?, map]
  induction entries with
  | nil => rfl
  | cons entry entries ih =>
    obtain ⟨key, value⟩ := entry
    simp only [List.map_cons, List.lookup_cons]
    split
    · rfl
    · exact ih

end SyntaxHighlight.Dictionary
