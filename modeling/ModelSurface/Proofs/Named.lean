import Mathlib.Data.List.Nodup
import ModelSurface.Keyed

/-!
# Tables of named values

Most tables keep each of their values under the name that the value itself carries. Then a value can
be found by its name, and by no other one.
-/

namespace ModelSurface

/-- Of values with different names each is found by its own. -/
theorem find?_eq_some_of_nodup {α : Type} {name : α → String} {items : List α}
    (h : (items.map name).Nodup) {item : α} (hmem : item ∈ items) :
    items.find? (fun other => name other == name item) = some item := by
  cases hfound : items.find? (fun other => name other == name item) with
  | none => exact absurd (beq_self_eq_true (name item)) (List.find?_eq_none.mp hfound item hmem)
  | some found =>
      have hsame := List.find?_some hfound
      exact congrArg some (List.inj_on_of_nodup_map h (List.mem_of_find?_eq_some hfound) hmem
        (beq_iff_eq.mp hsame))

end ModelSurface

namespace ModelSurface.Keyed

variable {α : Type}

/-- Each value is kept under its own name, and each name is there once. -/
structure NamedBy (name : α → String) (t : Keyed α) : Prop where
  distinct : t.keys.Nodup
  named : ∀ entry ∈ t.entries, name entry.2 = entry.1

theorem mem_putEntry {key : String} {value : α} {entries : List (String × α)}
    {entry : String × α} (h : entry ∈ putEntry key value entries) :
    entry = (key, value) ∨ entry ∈ entries := by
  induction entries with
  | nil => exact .inl (List.mem_singleton.mp h)
  | cons first rest ih =>
      obtain ⟨other, old⟩ := first
      unfold putEntry at h
      split at h
      · rcases List.mem_cons.mp h with heq | hrest
        · exact .inl heq
        · exact .inr (List.mem_cons_of_mem _ hrest)
      · rcases List.mem_cons.mp h with heq | hrest
        · exact .inr (heq ▸ List.mem_cons_self)
        · exact (ih hrest).imp id (List.mem_cons_of_mem _)

theorem mem_entries_of_get? {t : Keyed α} {key : String} {value : α}
    (h : t.get? key = some value) : (key, value) ∈ t.entries := by
  obtain ⟨before, after, heq, -⟩ := List.lookup_eq_some_iff.mp h
  rw [heq]
  exact List.mem_append_right before List.mem_cons_self

theorem mem_values_of_get? {t : Keyed α} {key : String} {value : α}
    (h : t.get? key = some value) : value ∈ t.values :=
  List.mem_map.mpr ⟨(key, value), mem_entries_of_get? h, rfl⟩

theorem mem_values_put {t : Keyed α} {key : String} {new value : α}
    (h : value ∈ (t.put key new).values) : value = new ∨ value ∈ t.values := by
  obtain ⟨entry, hentry, rfl⟩ := List.mem_map.mp h
  rcases mem_putEntry hentry with rfl | hold
  · exact .inl rfl
  · exact .inr (List.mem_map.mpr ⟨entry, hold, rfl⟩)

theorem mem_values_erase {t : Keyed α} {key : String} {value : α}
    (h : value ∈ (t.erase key).values) : value ∈ t.values := by
  obtain ⟨entry, hentry, rfl⟩ := List.mem_map.mp h
  exact List.mem_map.mpr ⟨entry, (List.mem_filter.mp hentry).1, rfl⟩

theorem lookup_of_mem {entries : List (String × α)} (hdistinct : (entries.map (·.1)).Nodup)
    {key : String} {value : α} (hmem : (key, value) ∈ entries) :
    entries.lookup key = some value := by
  induction entries with
  | nil => cases hmem
  | cons first rest ih =>
      obtain ⟨other, old⟩ := first
      obtain ⟨hfirst, hrest⟩ := List.nodup_cons.mp hdistinct
      rcases List.mem_cons.mp hmem with heq | hbehind
      · obtain ⟨rfl, rfl⟩ := Prod.mk.inj heq
        exact List.lookup_cons_self
      · have hne : (key == other) = false := by
          refine beq_eq_false_iff_ne.mpr fun heq => hfirst ?_
          exact List.mem_map.mpr ⟨(key, value), hbehind, heq⟩
        rw [List.lookup_cons, hne]
        exact ih hrest hbehind

theorem keys_erase (t : Keyed α) (key : String) :
    (t.erase key).keys = t.keys.filter fun other => other ≠ key := by
  unfold keys erase
  rw [List.filter_map]
  rfl

theorem lookup_filter_key {key other : String} (entries : List (String × α)) :
    (entries.filter fun e => e.1 ≠ key).lookup other =
      if other = key then none else entries.lookup other := by
  induction entries with
  | nil => simp
  | cons first rest ih =>
      obtain ⟨name, value⟩ := first
      by_cases hname : name = key
      · rw [List.filter_cons_of_neg (by simp [hname]), ih]
        by_cases hother : other = key
        · rw [if_pos hother, if_pos hother]
        · have hne : (other == name) = false := by simpa [hname] using hother
          rw [if_neg hother, if_neg hother, List.lookup_cons, hne]
      · rw [List.filter_cons_of_pos (by simp [hname]), List.lookup_cons, List.lookup_cons, ih]
        by_cases hother : other = name
        · simp [hother, hname]
        · have hne : (other == name) = false := by simpa using hother
          rw [hne]

theorem get?_erase (t : Keyed α) (key other : String) :
    (t.erase key).get? other = if other = key then none else t.get? other :=
  lookup_filter_key t.entries

namespace NamedBy

variable {name : α → String} {t : Keyed α}

theorem empty : NamedBy name (Keyed.empty : Keyed α) where
  distinct := .nil
  named _ h := absurd h List.not_mem_nil

theorem put (h : NamedBy name t) {key : String} {value : α} (hkey : name value = key) :
    NamedBy name (t.put key value) where
  distinct := by
    rw [keys_put]
    split
    · exact h.distinct
    · rename_i hnew
      refine List.nodup_append.mpr ⟨h.distinct, List.nodup_singleton key, ?_⟩
      intro other hother same hsame
      rw [List.mem_singleton.mp hsame]
      exact fun heq => hnew (heq ▸ hother)
  named entry hentry := by
    rcases mem_putEntry hentry with heq | hold
    · rw [heq]
      exact hkey
    · exact h.named entry hold

theorem erase (h : NamedBy name t) (key : String) : NamedBy name (t.erase key) where
  distinct := by
    rw [keys_erase]
    exact h.distinct.filter _
  named entry hentry := h.named entry (List.mem_filter.mp hentry).1

theorem foldl_put (h : NamedBy name t) (values : List α) :
    NamedBy name (values.foldl (fun t value => t.put (name value) value) t) := by
  induction values generalizing t with
  | nil => exact h
  | cons value values ih => exact ih (h.put rfl)

theorem ofList (values : List α) :
    NamedBy name (Keyed.ofList (values.map fun value => (name value, value))) := by
  unfold Keyed.ofList
  rw [List.foldl_map]
  exact empty.foldl_put values

theorem get?_eq_some (h : NamedBy name t) {key : String} {value : α} :
    t.get? key = some value ↔ value ∈ t.values ∧ name value = key := by
  constructor
  · intro hfound
    exact ⟨mem_values_of_get? hfound, h.named _ (mem_entries_of_get? hfound)⟩
  · rintro ⟨hmem, hname⟩
    obtain ⟨⟨other, found⟩, hentry, rfl⟩ := List.mem_map.mp hmem
    have hother : name found = other := h.named _ hentry
    rw [← hname, hother]
    exact lookup_of_mem h.distinct hentry

theorem mem_keys (h : NamedBy name t) {key : String} :
    key ∈ t.keys ↔ ∃ value ∈ t.values, name value = key := by
  rw [← isSome_get?_iff, Option.isSome_iff_exists]
  exact exists_congr fun value => h.get?_eq_some

end NamedBy

theorem mem_entries_ofList {entries : List (String × α)} {entry : String × α}
    (h : entry ∈ (Keyed.ofList entries).entries) : entry ∈ entries := by
  suffices hfold : ∀ (rest : List (String × α)) (t : Keyed α),
      entry ∈ (rest.foldl (fun t entry => t.put entry.1 entry.2) t).entries →
      entry ∈ t.entries ∨ entry ∈ rest from
    (hfold entries empty h).resolve_left List.not_mem_nil
  intro rest
  induction rest with
  | nil => exact fun t ht => .inl ht
  | cons first rest ih =>
      intro t ht
      rcases ih (t.put first.1 first.2) ht with hput | hbehind
      · rcases mem_putEntry hput with rfl | hold
        · exact .inr List.mem_cons_self
        · exact .inl hold
      · exact .inr (List.mem_cons_of_mem _ hbehind)

theorem mem_values_ofList {entries : List (String × α)} {value : α}
    (h : value ∈ (Keyed.ofList entries).values) : ∃ entry ∈ entries, entry.2 = value := by
  obtain ⟨entry, hentry, heq⟩ := List.mem_map.mp h
  exact ⟨entry, mem_entries_ofList hentry, heq⟩

theorem mem_of_mem_ofList {name : α → String} {values : List α} {value : α}
    (h : value ∈ (Keyed.ofList (values.map fun value => (name value, value))).values) :
    value ∈ values := by
  obtain ⟨entry, hentry, rfl⟩ := mem_values_ofList h
  obtain ⟨found, hfound, rfl⟩ := List.mem_map.mp hentry
  exact hfound

theorem putEntry_of_new {key : String} {value : α} {entries : List (String × α)}
    (h : key ∉ entries.map (·.1)) : putEntry key value entries = entries ++ [(key, value)] := by
  induction entries with
  | nil => rfl
  | cons first rest ih =>
      obtain ⟨other, old⟩ := first
      obtain ⟨hne, hrest⟩ := List.ne_and_not_mem_of_not_mem_cons h
      unfold putEntry
      rw [if_neg (Ne.symm hne), ih hrest, List.cons_append]

theorem keys_put_of_mem {t : Keyed α} {key : String} (value : α) (h : key ∈ t.keys) :
    (t.put key value).keys = t.keys := by
  rw [keys_put, if_pos h]

theorem keys_put_of_new {t : Keyed α} {key : String} (value : α) (h : key ∉ t.keys) :
    (t.put key value).keys = t.keys ++ [key] := by
  rw [keys_put, if_neg h]

theorem nodup_keys_put {t : Keyed α} (h : t.keys.Nodup) (key : String) (value : α) :
    (t.put key value).keys.Nodup := by
  by_cases hmem : key ∈ t.keys
  · rwa [keys_put_of_mem value hmem]
  · rw [keys_put_of_new value hmem]
    exact List.nodup_append.mpr ⟨h, List.nodup_singleton key, fun _ hold _ hnew heq =>
      hmem (List.mem_singleton.mp hnew ▸ heq ▸ hold)⟩

theorem putEntry_of_lookup {key : String} {value : α} {entries : List (String × α)}
    (h : entries.lookup key = some value) : putEntry key value entries = entries := by
  induction entries with
  | nil => cases h
  | cons first rest ih =>
      obtain ⟨other, old⟩ := first
      unfold putEntry
      by_cases hsame : other = key
      · subst hsame
        rw [List.lookup_cons_self] at h
        rw [if_pos rfl, Option.some.inj h]
      · have hne : (key == other) = false := beq_false_of_ne (Ne.symm hsame)
        rw [List.lookup_cons, hne] at h
        rw [if_neg hsame, ih h]

/-- A value that is put where it stands already changes nothing. -/
theorem put_of_get? {t : Keyed α} {key : String} {value : α} (h : t.get? key = some value) :
    t.put key value = t := by
  unfold put
  rw [putEntry_of_lookup h]

/-- Values with names that are there take the places of those that have them. -/
theorem keys_foldl_put_of_mem {entries : List (String × α)} {t : Keyed α}
    (h : ∀ entry ∈ entries, entry.1 ∈ t.keys) :
    (entries.foldl (fun t entry => t.put entry.1 entry.2) t).keys = t.keys := by
  induction entries generalizing t with
  | nil => rfl
  | cons first rest ih =>
      obtain ⟨hfirst, hrest⟩ := List.forall_mem_cons.mp h
      have hkeys := keys_put_of_mem first.2 hfirst
      rw [List.foldl_cons, ih fun entry hentry => hkeys ▸ hrest entry hentry, hkeys]

/-- Values that stand where they are put change nothing. -/
theorem foldl_put_of_get? {entries : List (String × α)} {t : Keyed α}
    (h : ∀ entry ∈ entries, t.get? entry.1 = some entry.2) :
    entries.foldl (fun t entry => t.put entry.1 entry.2) t = t := by
  induction entries with
  | nil => rfl
  | cons first rest ih =>
      obtain ⟨hfirst, hrest⟩ := List.forall_mem_cons.mp h
      rw [List.foldl_cons, put_of_get? hfirst, ih hrest]

/-- New values stand behind those that are there. -/
theorem keys_foldl_put_of_new {entries : List (String × α)} {t : Keyed α}
    (h : (t.keys ++ entries.map (·.1)).Nodup) :
    (entries.foldl (fun t entry => t.put entry.1 entry.2) t).keys =
      t.keys ++ entries.map (·.1) := by
  induction entries generalizing t with
  | nil => exact (List.append_nil _).symm
  | cons first rest ih =>
      have hsplit : t.keys ++ (first :: rest).map (·.1) =
          t.keys ++ [first.1] ++ rest.map (·.1) := by
        rw [List.append_assoc, List.singleton_append, List.map_cons]
      have hnew : first.1 ∉ t.keys := by
        intro hmem
        exact (List.nodup_append.mp h).2.2 _ hmem _ List.mem_cons_self rfl
      have hkeys := keys_put_of_new first.2 hnew
      rw [hsplit] at h ⊢
      rw [List.foldl_cons, ih (by rwa [hkeys]), hkeys]

/-- Values with distinct names take the places of those that are there, or stand behind them. -/
theorem keys_foldl_put {name : α → String} {values : List α} (hdistinct : (values.map name).Nodup)
    (t : Keyed α) : (values.foldl (fun t value => t.put (name value) value) t).keys =
      t.keys ++ (values.map name).filter fun key => key ∉ t.keys := by
  induction values generalizing t with
  | nil => simp
  | cons value values ih =>
      obtain ⟨hfirst, hrest⟩ := List.nodup_cons.mp hdistinct
      rw [List.foldl_cons, ih hrest]
      by_cases hmem : name value ∈ t.keys
      · simp [keys_put_of_mem value hmem, hmem]
      · have hbehind : ((values.map name).filter fun key => key ∉ t.keys ++ [name value]) =
            (values.map name).filter fun key => key ∉ t.keys := by
          refine List.filter_congr fun key hkey => ?_
          have hne : key ≠ name value := fun heq => hfirst (heq ▸ hkey)
          simp [hne]
        rw [keys_put_of_new value hmem, hbehind]
        simp [hmem]

theorem keys_foldl_erase (names : List String) (t : Keyed α) :
    (names.foldl (fun t key => t.erase key) t).keys = t.keys.filter fun key => key ∉ names := by
  induction names generalizing t with
  | nil => simp
  | cons first rest ih =>
      rw [List.foldl_cons, ih, keys_erase, List.filter_filter]
      refine List.filter_congr fun key _ => ?_
      by_cases hkey : key = first <;> simp [hkey]

theorem mem_keys_foldl_put {entries : List (String × α)} {t : Keyed α} {key : String} :
    key ∈ (entries.foldl (fun t entry => t.put entry.1 entry.2) t).keys ↔
      key ∈ t.keys ∨ key ∈ entries.map (·.1) := by
  induction entries generalizing t with
  | nil => simp
  | cons first rest ih =>
      rw [List.foldl_cons, ih, mem_keys_put, List.map_cons, List.mem_cons]
      tauto

theorem mem_keys_ofList {entries : List (String × α)} {key : String} :
    key ∈ (Keyed.ofList entries).keys ↔ key ∈ entries.map (·.1) := by
  unfold Keyed.ofList
  rw [mem_keys_foldl_put]
  exact or_iff_right List.not_mem_nil

theorem nodup_keys_ofList (entries : List (String × α)) : (Keyed.ofList entries).keys.Nodup :=
  List.foldlRecOn (motive := fun t : Keyed α => t.keys.Nodup) entries _ List.nodup_nil
    fun _ ht entry _ => nodup_keys_put ht entry.1 entry.2

/-- Entries with distinct keys are all kept, in their order. -/
theorem entries_ofList {entries : List (String × α)} (h : (entries.map (·.1)).Nodup) :
    (Keyed.ofList entries).entries = entries := by
  suffices hfold : ∀ (rest done : List (String × α)), ((done ++ rest).map (·.1)).Nodup →
      (rest.foldl (fun t entry => t.put entry.1 entry.2) (⟨done⟩ : Keyed α)).entries =
        done ++ rest from hfold entries [] h
  intro rest
  induction rest with
  | nil => exact fun done _ => (List.append_nil done).symm
  | cons first rest ih =>
      intro done hnodup
      have hsplit : done ++ first :: rest = done ++ [first] ++ rest := by
        rw [List.append_assoc, List.singleton_append]
      have hnew : first.1 ∉ done.map (·.1) := by
        rw [List.map_append, List.map_cons] at hnodup
        intro hmem
        exact (List.nodup_append.mp hnodup).2.2 _ hmem _ List.mem_cons_self rfl
      rw [hsplit] at hnodup ⊢
      rw [List.foldl_cons, put, putEntry_of_new hnew]
      exact ih (done ++ [first]) hnodup

/-- Named values with distinct names are all kept, in their order. -/
theorem values_ofList {name : α → String} {values : List α} (h : (values.map name).Nodup) :
    (Keyed.ofList (values.map fun value => (name value, value))).values = values := by
  have hkeys : ((values.map fun value => (name value, value)).map (·.1)).Nodup := by
    rwa [List.map_map]
  unfold Keyed.values
  rw [entries_ofList hkeys, List.map_map]
  exact List.map_id values

/-- Where keys are distinct, a table consists of what is found under them. -/
theorem entries_eq_filterMap {t : Keyed α} (hdistinct : t.keys.Nodup) :
    t.entries = t.keys.filterMap fun key => (t.get? key).map fun value => (key, value) := by
  have hfound : ∀ entry ∈ t.entries,
      (t.get? entry.1).map (fun value => (entry.1, value)) = some entry := by
    rintro ⟨key, value⟩ hentry
    have hget : t.get? key = some value := lookup_of_mem hdistinct hentry
    rw [hget, Option.map_some]
  unfold keys
  rw [List.filterMap_map]
  exact List.filterMap_some.symm.trans
    (List.filterMap_congr fun entry hentry => (hfound entry hentry).symm)

theorem ext_get? {t t' : Keyed α} (hdistinct : t.keys.Nodup) (hkeys : t'.keys = t.keys)
    (hget : ∀ key, t'.get? key = t.get? key) : t' = t := by
  have hentries : t'.entries = t.entries := by
    rw [entries_eq_filterMap hdistinct, entries_eq_filterMap (hkeys ▸ hdistinct), hkeys]
    exact List.filterMap_congr fun key _ => by rw [hget]
  cases t
  cases t'
  exact congrArg Keyed.mk hentries

theorem NamedBy.map_name {name : α → String} {t : Keyed α} (h : NamedBy name t) :
    t.values.map name = t.keys := by
  unfold Keyed.values keys
  rw [List.map_map]
  exact List.map_congr_left h.named

theorem NamedBy.nodup_names {name : α → String} {t : Keyed α} (h : NamedBy name t) :
    (t.values.map name).Nodup := by
  rw [h.map_name]
  exact h.distinct

end ModelSurface.Keyed
