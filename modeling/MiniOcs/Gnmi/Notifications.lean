import MiniOcs.Gnmi.Subscribe

/-!
# What a subscriber is told

A value that may be out of date is always covered: a matching event is unread or waits in the
batch, or the read that is going on will return the snapshot. At the tails of the streams only
the snapshot itself is left.
-/
namespace MiniOcs.Gnmi
open Std MiniOcs.Redis

/-! ## Rendering -/

section Collect

variable {β : Type} {row : String → Fields} {render : String → Fields → Option β}

theorem collect_append (xs ys : List String) :
    collect row render (xs ++ ys) = (collect row render xs).bind fun items =>
      (collect row render ys).map fun more => items ++ more := by
  induction xs with
  | nil => simp [collect]
  | cons id rest ih =>
      simp only [List.cons_append, collect, ih]
      split_ifs
      · rfl
      · cases render id (row id) <;> cases collect row render rest <;>
          cases collect row render ys <;> simp

/-- Ids without a hash do not count. -/
theorem collect_filter (ids : List String) :
    collect row render (ids.filter fun id => !(row id).isEmpty) = collect row render ids := by
  induction ids with
  | nil => rfl
  | cons id rest ih =>
      by_cases h : (row id).isEmpty
      · simp [collect, h, ih]
      · simp [collect, h, ih]

theorem collect_congr {row' : String → Fields} {ids : List String}
    (h : ∀ id ∈ ids, row' id = row id) : collect row' render ids = collect row render ids := by
  induction ids with
  | nil => rfl
  | cons id rest ih =>
      simp only [collect, h id (by simp), ih fun i hi => h i (by simp [hi])]

theorem collect_perm {xs ys : List String} (h : xs.Perm ys) {items : List β}
    (hx : collect row render xs = some items) :
    ∃ items', collect row render ys = some items' ∧ items.Perm items' := by
  induction h generalizing items with
  | nil => exact ⟨items, hx, .refl _⟩
  | cons id _ ih =>
      simp only [collect] at hx ⊢
      split_ifs at hx ⊢
      · exact ih hx
      · simp only [Option.bind_eq_bind, Option.bind_eq_some_iff, Option.some.injEq] at hx ⊢
        obtain ⟨item, hitem, more, hmore, rfl⟩ := hx
        obtain ⟨more', hmore', hperm⟩ := ih hmore
        exact ⟨_, ⟨item, hitem, more', hmore', rfl⟩, hperm.cons item⟩
  | swap a b rest =>
      simp only [collect] at hx ⊢
      split_ifs at hx ⊢
      · exact ⟨_, hx, .refl _⟩
      · exact ⟨_, hx, .refl _⟩
      · exact ⟨_, hx, .refl _⟩
      · simp only [Option.bind_eq_bind, Option.bind_eq_some_iff, Option.some.injEq] at hx ⊢
        obtain ⟨x, hxb, _, ⟨y, hya, more, hmore, rfl⟩, rfl⟩ := hx
        exact ⟨_, ⟨y, hya, _, ⟨x, hxb, more, hmore, rfl⟩, rfl⟩, .swap y x more⟩
  | trans _ _ ih₁ ih₂ =>
      obtain ⟨_, h₁, hp₁⟩ := ih₁ hx
      obtain ⟨items', h₂, hp₂⟩ := ih₂ h₁
      exact ⟨items', h₂, hp₁.trans hp₂⟩

theorem mem_collect {ids : List String} {items : List β} {item : β}
    (h : collect row render ids = some items) (hitem : item ∈ items) :
    ∃ id ∈ ids, (row id).isEmpty = false ∧ render id (row id) = some item := by
  induction ids generalizing items with
  | nil => cases h; cases hitem
  | cons id rest ih =>
      simp only [collect] at h
      split_ifs at h with hrow
      · obtain ⟨i, hi, hfound⟩ := ih h hitem
        exact ⟨i, List.mem_cons_of_mem _ hi, hfound⟩
      · simp only [Option.bind_eq_bind, Option.bind_eq_some_iff, Option.some.injEq] at h
        obtain ⟨first, hfirst, more, hmore, rfl⟩ := h
        rcases List.mem_cons.mp hitem with rfl | hitem
        · exact ⟨id, by simp, by simpa using hrow, hfirst⟩
        · obtain ⟨i, hi, hfound⟩ := ih hmore hitem
          exact ⟨i, List.mem_cons_of_mem _ hi, hfound⟩

end Collect

/-- Two iterations that cover the same hashes, each id once, render the same. -/
theorem filter_perm_of_mem_iff {xs ys : List String} {p : String → Bool} (hx : xs.Nodup)
    (hy : ys.Nodup) (h : ∀ id, p id → (id ∈ xs ↔ id ∈ ys)) : (xs.filter p).Perm (ys.filter p) := by
  apply (List.perm_ext_iff_of_nodup (hx.filter p) (hy.filter p)).mpr
  intro id
  simp only [List.mem_filter]
  constructor
  · rintro ⟨hid, hp⟩
    exact ⟨(h id hp).mp hid, hp⟩
  · rintro ⟨hid, hp⟩
    exact ⟨(h id hp).mpr hid, hp⟩

/-! ## Listed alarms are told apart by their ids -/

theorem dash_eq {c d : Char} (hd : d ≠ '-') (h : (if c = '_' then '-' else c) = d) : c = d := by
  split_ifs at h
  · exact absurd h.symm hd
  · exact h

theorem jsonName_eq_id {name : String} (h : jsonName name = "id") : name = "id" := by
  have hlist : name.toList.map (fun c => if c = '_' then '-' else c) = ['i', 'd'] := by
    have := congrArg String.toList h
    simpa [jsonName] using this
  obtain ⟨a, rest, hname, ha, hrest⟩ := List.map_eq_cons_iff.mp hlist
  obtain ⟨b, last, rfl, hb, hlast⟩ := List.map_eq_cons_iff.mp hrest
  rw [List.map_eq_nil_iff.mp hlast, dash_eq (by decide) ha, dash_eq (by decide) hb] at hname
  exact String.toList_inj.mp hname

theorem addField_id {item item' : Item} {field : String × String}
    (h : addField item field = some item') :
    item'["id"]? = item["id"]? ∨
      field.1 = "id" ∧ ∃ value, nativeValue "id" field.2 = some value ∧
        item'["id"]? = some value := by
  simp only [addField, Option.map_eq_some_iff] at h
  obtain ⟨value, hvalue, rfl⟩ := h
  by_cases hname : field.1 = "id"
  · refine .inr ⟨hname, value, hname ▸ hvalue, ?_⟩
    rw [hname]
    exact ExtTreeMap.getElem?_insert_self
  · left
    rw [ExtTreeMap.getElem?_insert, if_neg]
    intro hcompare
    exact hname (jsonName_eq_id (LawfulEqCmp.eq_of_compare hcompare))

theorem foldlM_addField_id {l : List (String × String)} {item item' : Item}
    (h : l.foldlM addField item = some item') :
    item'["id"]? = item["id"]? ∨
      ∃ raw value, ("id", raw) ∈ l ∧ nativeValue "id" raw = some value ∧
        item'["id"]? = some value := by
  induction l generalizing item with
  | nil => cases h; exact .inl rfl
  | cons field rest ih =>
      rw [List.foldlM_cons] at h
      simp only [Option.bind_eq_bind, Option.bind_eq_some_iff] at h
      obtain ⟨next, hnext, hrest⟩ := h
      rcases ih hrest with hkept | ⟨raw, value, hraw, hvalue⟩
      · rcases addField_id hnext with hsame | ⟨hname, value, hvalue, hid⟩
        · exact .inl (hkept.trans hsame)
        · refine .inr ⟨field.2, value, ?_, hvalue, hkept.trans hid⟩
          rw [← hname]
          exact List.mem_cons_self
      · exact .inr ⟨raw, value, List.mem_cons_of_mem _ hraw, hvalue⟩

theorem nativeValue_id (raw : String) :
    nativeValue "id" raw = some (.text raw) ∨
      ∃ b : Bool, nativeValue "id" raw = some (.bool b) ∧ raw = if b then "true" else "false" := by
  have hint : ¬ ("id" ∈ integerFields ∨ "_total".toList <:+ "id".toList) := by decide +kernel
  rw [nativeValue, if_neg hint]
  by_cases ht : raw = "true"
  · exact .inr ⟨true, by simp [ht], by simp [ht]⟩
  · by_cases hf : raw = "false"
    · exact .inr ⟨false, by simp [hf], by simp [hf]⟩
    · exact .inl (by simp [ht, hf])

/-- The sort key of a listed alarm gives back the id it is stored under. -/
theorem renderAlarm_id {id : String} {fields : Fields} {item : Item}
    (hnamed : ∀ name, fields["id"]? = some name → name = id)
    (h : renderAlarm id fields = some item) :
    textId item = some id ∨
      textId item = none ∧ ∃ b : Bool, boolId item = some b ∧ id = if b then "true" else "false" := by
  simp only [renderAlarm, Option.map_eq_some_iff] at h
  obtain ⟨native, hnative, rfl⟩ := h
  rcases foldlM_addField_id hnative with habsent | ⟨raw, value, hraw, hvalue, hid⟩
  · have hmem : "id" ∉ native := by
      rw [ExtTreeMap.mem_iff_isSome_getElem?, habsent]
      simp
    left
    rw [if_neg hmem, textId, ExtTreeMap.getElem?_insert_self]
  · have hmem : "id" ∈ native := by
      rw [ExtTreeMap.mem_iff_isSome_getElem?, hid]
      rfl
    have hname : raw = id := hnamed raw (ExtTreeMap.mem_toList_iff_getElem?_eq_some.mp hraw)
    rw [if_pos hmem]
    rcases nativeValue_id raw with htext | ⟨b, hbool, hb⟩
    · left
      rw [textId, hid, ← hname, Option.some.inj (hvalue.symm.trans htext)]
    · have hval := Option.some.inj (hvalue.symm.trans hbool)
      right
      refine ⟨?_, b, ?_, hname.symm.trans hb⟩
      · rw [textId, hid, hval]
      · rw [boolId, hid, hval]

theorem boolId_eq_none {item : Item} {id : String} (h : textId item = some id) :
    boolId item = none := by
  unfold textId at h
  unfold boolId
  split at h
  · rename_i heq
    rw [heq]
  · cases h

/-- The alarms of one list that carry the same id are the same. -/
theorem alarm_eq_of_id {row : String → Fields} {ids : List String} {items : List Item}
    (hnamed : ∀ id name, (row id)["id"]? = some name → name = id)
    (h : collect row renderAlarm ids = some items) {a b : Item} (ha : a ∈ items) (hb : b ∈ items)
    (hkey : (∃ id, textId a = some id ∧ textId b = some id) ∨
      ∃ id, boolId a = some id ∧ boolId b = some id) : a = b := by
  obtain ⟨i, -, -, hi⟩ := mem_collect h ha
  obtain ⟨j, -, -, hj⟩ := mem_collect h hb
  suffices hij : i = j by
    subst hij
    exact Option.some.inj (hi.symm.trans hj)
  have hida := renderAlarm_id (hnamed i) hi
  have hidb := renderAlarm_id (hnamed j) hj
  rcases hkey with ⟨id, hka, hkb⟩ | ⟨id, hka, hkb⟩
  · rcases hida with hida | ⟨hnone, -⟩
    · rcases hidb with hidb | ⟨hnone, -⟩
      · rw [hka] at hida
        rw [hkb] at hidb
        exact (Option.some.inj hida).symm.trans (Option.some.inj hidb)
      · rw [hnone] at hkb; cases hkb
    · rw [hnone] at hka; cases hka
  · rcases hida with hida | ⟨-, x, hx, hxi⟩
    · rw [boolId_eq_none hida] at hka; cases hka
    · rcases hidb with hidb | ⟨-, y, hy, hyj⟩
      · rw [boolId_eq_none hidb] at hkb; cases hkb
      · have hxy : x = y := by
          rw [hka] at hx
          rw [hkb] at hy
          exact (Option.some.inj hx).symm.trans (Option.some.inj hy)
        rw [hxi, hyj, hxy]

theorem mergeSort_eq_of_perm {α κ : Type} [LinearOrder κ] {f : α → κ} {xs ys : List α}
    (h : xs.Perm ys) (hinj : ∀ a ∈ xs, ∀ b ∈ xs, f a = f b → a = b) :
    xs.mergeSort (fun a b => decide (f a ≤ f b)) =
      ys.mergeSort (fun a b => decide (f a ≤ f b)) := by
  have htrans : ∀ a b c : α, decide (f a ≤ f b) → decide (f b ≤ f c) → decide (f a ≤ f c) := by
    intro a b c hab hbc
    exact decide_eq_true ((of_decide_eq_true hab).trans (of_decide_eq_true hbc))
  have htotal : ∀ a b : α, decide (f a ≤ f b) || decide (f b ≤ f a) := by
    intro a b
    simpa using le_total (f a) (f b)
  have hxs := List.mergeSort_perm xs fun a b => decide (f a ≤ f b)
  have hys := List.mergeSort_perm ys fun a b => decide (f a ≤ f b)
  apply List.Perm.eq_of_pairwise _ (List.pairwise_mergeSort htrans htotal xs)
    (List.pairwise_mergeSort htrans htotal ys) (hxs.trans (h.trans hys.symm))
  intro a b ha hb hab hba
  apply hinj a (hxs.mem_iff.mp ha) b (h.mem_iff.mpr (hys.mem_iff.mp hb))
  exact LE.le.antisymm (of_decide_eq_true hab) (of_decide_eq_true hba)

theorem sortAlarms_eq_of_perm {xs ys : List Item} (h : xs.Perm ys)
    (hinj : ∀ a ∈ xs, ∀ b ∈ xs, ((∃ id, textId a = some id ∧ textId b = some id) ∨
      ∃ id, boolId a = some id ∧ boolId b = some id) → a = b) :
    sortAlarms xs = sortAlarms ys := by
  have hall : ∀ p : Item → Bool, ys.all p = xs.all p := fun p => (h.all_eq (f := p)).symm
  unfold sortAlarms
  rw [hall, hall]
  split_ifs with htext hbool
  · rw [List.all_eq_true] at htext
    congr 1
    apply mergeSort_eq_of_perm h
    intro a ha b hb hab
    obtain ⟨x, hx⟩ := Option.isSome_iff_exists.mp (htext a ha)
    obtain ⟨y, hy⟩ := Option.isSome_iff_exists.mp (htext b hb)
    simp only [hx, hy, Option.getD_some] at hab
    exact hinj a ha b hb (.inl ⟨x, hx, hab ▸ hy⟩)
  · rw [List.all_eq_true] at hbool
    congr 1
    apply mergeSort_eq_of_perm h
    intro a ha b hb hab
    obtain ⟨x, hx⟩ := Option.isSome_iff_exists.mp (hbool a ha)
    obtain ⟨y, hy⟩ := Option.isSome_iff_exists.mp (hbool b hb)
    simp only [hx, hy, Option.getD_some] at hab
    exact hinj a ha b hb (.inr ⟨x, hx, hab ▸ hy⟩)
  · rfl

/-! ## Reads that nobody disturbs -/

namespace Snapshots

variable {s t : Snapshots} {path : NativePath}

theorem mem_ids {id : String} : id ∈ s.ids path ↔ id ∈ s.rows path.database path.device := by
  rw [ids, List.mem_toFinset, ExtTreeMap.mem_keys]

@[simp] theorem mem_sortedIds {id : String} : id ∈ s.sortedIds path ↔ id ∈ s.ids path :=
  Finset.mem_sort (· ≤ ·)

theorem sortedIds_nodup (s : Snapshots) (path : NativePath) : (s.sortedIds path).Nodup :=
  Finset.sort_nodup _ _

theorem sortedIds_pairwise (s : Snapshots) (path : NativePath) :
    (s.sortedIds path).Pairwise (· ≤ ·) :=
  Finset.pairwise_sort _ _

theorem mem_ids_of_hgetall {id : String}
    (h : (s.hgetall path.database path.device id).isEmpty = false) : id ∈ s.ids path := by
  rw [mem_ids]
  by_contra hid
  rw [hgetall, ExtTreeMap.getElem?_eq_none hid] at h
  simp at h

/-- Nothing that the path reads has changed. -/
def Same (s t : Snapshots) (path : NativePath) : Prop :=
  ∀ id, path.concerns id →
    (t.rows path.database path.device)[id]? = (s.rows path.database path.device)[id]?

theorem Same.rows (h : Same s t path) (hall : ∀ id, path.concerns id) :
    t.rows path.database path.device = s.rows path.database path.device :=
  ExtTreeMap.ext_getElem? fun id => h id (hall id)

theorem Same.snapshot (h : Same s t path) : t.snapshot path = s.snapshot path := by
  cases path with
  | connections device =>
      have hrows := h.rows fun _ => rfl
      simp only [Snapshots.snapshot, sortedIds, ids, hrows]
      rw [collect_congr]
      intro id _
      simp only [hgetall, hrows]
  | alarms device =>
      have hrows := h.rows fun _ => rfl
      simp only [Snapshots.snapshot, sortedIds, ids, hrows]
      rw [collect_congr]
      intro id _
      simp only [hgetall, hrows]
  | connectionState device id =>
      have hrow := h id (by simp [NativePath.concerns])
      simp only [Snapshots.snapshot, hgetall, hrow]
  | alarm device id =>
      have hrow := h id (by simp [NativePath.concerns])
      simp only [Snapshots.snapshot, hgetall, hrow]

/-- A write leaves what a path reads alone, or appends an event that matches it. -/
theorem Writes.same_or_matches (h : s.Writes t) (path : NativePath) :
    Same s t path ∨
      ∃ entries, t.log path.database = s.log path.database ++ entries ∧
        ∃ entry ∈ entries, ∃ event, parseEvent path.database entry = some event ∧
          path.matchesEvent event := by
  obtain ⟨entries, hlog, hannounced⟩ := h.2 path.database
  by_cases hsame : Same s t path
  · exact .inl hsame
  · right
    unfold Same at hsame
    push Not at hsame
    obtain ⟨id, hconcerns, hne⟩ := hsame
    obtain ⟨entry, hentry, event, hparse, hdevice, htype, hid⟩ := hannounced path.device id hne
    refine ⟨entries, hlog, entry, hentry, event, hparse, ?_⟩
    simp [NativePath.matchesEvent, hdevice, htype, hid, hconcerns]

end Snapshots

namespace Reading

variable {s t : Snapshots} {path : NativePath}

/-- Left alone, the read will return the snapshot. -/
def Fresh (s : Snapshots) (path : NativePath) (reading : Reading) : Prop :=
  match path, reading with
  | .connectionState _ _, .hash | .alarm _ _, .hash => True
  | .connections _, .device | .alarms _, .device => True
  | .connections _, .scan owed ids => ∀ id ∈ s.ids path, id ∈ owed ∨ id ∈ ids
  | .connections _, .members rest entries =>
      (collect (s.hgetall path.database path.device) renderConnection rest).map (entries ++ ·) =
        collect (s.hgetall path.database path.device) renderConnection (s.sortedIds path)
  | .alarms _, .alarmScan owed returned page finished items =>
      returned.Nodup ∧ (∀ id ∈ s.ids path, id ∈ owed ∨ id ∈ returned) ∧
        (finished → owed = []) ∧ ∃ seen, returned = seen ++ page ∧
          collect (s.hgetall path.database path.device) renderAlarm seen = some items
  | _, _ => False

theorem fresh_start (s : Snapshots) (path : NativePath) : Fresh s path (start path) := by
  cases path <;> trivial

theorem Fresh.connections {device : String} {ids : Finset String}
    (h : ∀ id ∈ s.ids (.connections device), id ∈ ids) :
    Fresh s (.connections device) (.members (ids.sort (· ≤ ·)) []) := by
  have hperm := filter_perm_of_mem_iff
    (p := fun id => !(s.hgetall (NativePath.connections device).database device id).isEmpty)
    (Finset.sort_nodup ids (· ≤ ·)) (s.sortedIds_nodup (.connections device)) (by
      intro id hid
      have hmem : id ∈ s.ids (.connections device) :=
        Snapshots.mem_ids_of_hgetall (by simpa using hid)
      simp [hmem, h id hmem])
  have heq := List.Perm.eq_of_pairwise (by
      intro a b _ _ hab hba
      exact LE.le.antisymm hab hba)
    ((Finset.pairwise_sort ids (· ≤ ·)).filter _)
    ((s.sortedIds_pairwise (.connections device)).filter _) hperm
  simp only [Fresh, List.nil_append, Option.map_id']
  rw [← collect_filter, ← collect_filter (s.sortedIds _)]
  exact congrArg _ heq

theorem fresh_alarms {device : String} (hnamed : s.Named) {returned : List String}
    {items : List Item} (hnodup : returned.Nodup)
    (h : ∀ id ∈ s.ids (.alarms device), id ∈ returned)
    (hitems : collect (s.hgetall .alarm device) renderAlarm returned = some items) :
    s.snapshot (.alarms device) = (sortAlarms items).map fun entries => some (.alarm entries) := by
  have hperm := filter_perm_of_mem_iff (p := fun id => !(s.hgetall .alarm device id).isEmpty)
    hnodup (s.sortedIds_nodup (.alarms device)) (by
      intro id hid
      have hmem : id ∈ s.ids (.alarms device) := Snapshots.mem_ids_of_hgetall (by simpa using hid)
      simp [hmem, h id hmem])
  have hfiltered := hitems
  rw [← collect_filter] at hfiltered
  obtain ⟨items', hitems', hsorted⟩ := collect_perm hperm hfiltered
  rw [collect_filter] at hitems'
  have hrow : ∀ id name, (s.hgetall .alarm device id)["id"]? = some name → name = id := by
    intro id name hname
    unfold Snapshots.hgetall at hname
    cases hrow : (s.rows .alarm device)[id]? with
    | none => simp [hrow] at hname
    | some fields =>
        rw [hrow, Option.getD_some] at hname
        exact hnamed device id fields hrow name hname
  have hsort := sortAlarms_eq_of_perm hsorted fun a ha b hb => alarm_eq_of_id hrow hitems ha hb
  simp only [Snapshots.snapshot, NativePath.database, NativePath.device]
  rw [hitems', Option.bind_some, ← hsort]

theorem Fresh.scan {device : String} {owed : List String} {ids : Finset String}
    {reply : ScanReply} (h : Fresh s (.connections device) (.scan owed ids))
    (hadmits : (Reading.scan owed ids).Admits s (.connections device) reply) :
    (reply.finished → ∀ id ∈ s.ids (.connections device), id ∈ ids ∪ reply.keys.toFinset) ∧
      Fresh s (.connections device)
        (.scan (owed.filter (· ∉ reply.keys)) (ids ∪ reply.keys.toFinset)) := by
  constructor
  · intro hfinished id hid
    rw [Finset.mem_union, List.mem_toFinset]
    rcases h id hid with howed | hfound
    · exact .inr (hadmits.2 hfinished id howed)
    · exact .inl hfound
  · intro id hid
    rw [List.mem_filter, Finset.mem_union, List.mem_toFinset]
    by_cases hkey : id ∈ reply.keys
    · exact .inr (.inr hkey)
    · rcases h id hid with howed | hfound
      · exact .inl ⟨howed, by simpa using hkey⟩
      · exact .inr (.inl hfound)

theorem Fresh.alarmPage {device : String} {owed returned : List String} {items : List Item}
    {reply : ScanReply} (h : Fresh s (.alarms device) (.alarmScan owed returned [] false items))
    (hadmits : (Reading.alarmScan owed returned [] false items).Admits s (.alarms device) reply)
    (hrepeat : (returned ++ reply.keys).Nodup) :
    Fresh s (.alarms device) (.alarmScan (owed.filter (· ∉ reply.keys)) (returned ++ reply.keys)
      reply.keys reply.finished items) := by
  obtain ⟨-, hcover, -, seen, hseen, hitems⟩ := h
  rw [List.append_nil] at hseen
  subst hseen
  refine ⟨hrepeat, ?_, ?_, returned, rfl, hitems⟩
  · intro id hid
    rw [List.mem_filter, List.mem_append]
    by_cases hkey : id ∈ reply.keys
    · exact .inr (.inr hkey)
    · rcases hcover id hid with howed | hret
      · exact .inl ⟨howed, by simpa using hkey⟩
      · exact .inr (.inl hret)
  · intro hfinished
    rw [List.filter_eq_nil_iff]
    intro id hid
    simpa using hadmits.2 hfinished id hid

/-- One command of an undisturbed read. -/
theorem Fresh.step {reading : Reading} {reply : ScanReply} (h : Fresh s path reading)
    (hnamed : s.Named) (hadmits : reading.Admits s path reply) (hrepeat : reading.NoRepeat reply) :
    match reading.step s path reply with
    | .more next => Fresh s path next
    | .done payload => s.snapshot path = some payload
    | .failed => True := by
  cases path with
  | connectionState device id =>
      cases reading with
      | hash =>
          simp only [Reading.step, Snapshots.snapshot, NativePath.database, NativePath.device]
          cases Snapshots.hashPayload (s.hgetall .state device id) with
          | some payload => rfl
          | none => trivial
      | _ => exact h.elim
  | alarm device id =>
      cases reading with
      | hash =>
          simp only [Reading.step, Snapshots.snapshot, NativePath.database, NativePath.device]
          cases Snapshots.hashPayload (s.hgetall .alarm device id) with
          | some payload => rfl
          | none => trivial
      | _ => exact h.elim
  | connections device =>
      cases reading with
      | device =>
          intro id hid
          exact .inl (by simpa using hid)
      | scan owed ids =>
          obtain ⟨hlast, hmore⟩ := Fresh.scan h hadmits
          simp only [Reading.step]
          by_cases hfinished : reply.finished
          · rw [if_pos hfinished]
            exact Fresh.connections (hlast hfinished)
          · rw [if_neg hfinished]
            exact hmore
      | members rest entries =>
          cases rest with
          | nil =>
              simp only [Fresh, collect, Option.map_some, List.append_nil] at h
              simp only [Reading.step, Snapshots.snapshot]
              rw [← h, Option.map_some]
          | cons id rest =>
              simp only [Fresh, collect] at h
              simp only [Reading.step]
              by_cases hempty : (s.hgetall .state device id).isEmpty
              · simp only [NativePath.database, NativePath.device, hempty, if_true] at h ⊢
                exact h
              · simp only [NativePath.database, NativePath.device, hempty, if_false,
                  Bool.false_eq_true] at h ⊢
                cases hrender : renderConnection id (s.hgetall .state device id) with
                | none => trivial
                | some entry =>
                    simp only [Fresh, NativePath.database, NativePath.device]
                    rw [← h, hrender]
                    cases collect (s.hgetall .state device) renderConnection rest <;> simp
      | _ => exact h.elim
  | alarms device =>
      cases reading with
      | device =>
          refine ⟨List.nodup_nil, ?_, by simp, [], rfl, rfl⟩
          intro id hid
          exact .inl (by simpa using hid)
      | alarmScan owed returned page finished items =>
          cases page with
          | nil =>
              cases finished with
              | false => exact Fresh.alarmPage h hadmits hrepeat
              | true =>
                  obtain ⟨hnodup, hcover, howed, seen, hseen, hitems⟩ := h
                  rw [List.append_nil] at hseen
                  subst hseen
                  have hall : ∀ id ∈ s.ids (.alarms device), id ∈ returned := by
                    intro id hid
                    rcases hcover id hid with hin | hret
                    · rw [howed rfl] at hin; cases hin
                    · exact hret
                  have hsnapshot := fresh_alarms hnamed hnodup hall hitems
                  simp only [Reading.step]
                  cases hsort : sortAlarms items with
                  | none => trivial
                  | some entries => exact hsnapshot.trans (by rw [hsort, Option.map_some])
          | cons id page =>
              obtain ⟨hnodup, hcover, howed, seen, hseen, hitems⟩ := h
              have hseen' : returned = (seen ++ [id]) ++ page := by rw [hseen]; simp
              simp only [Reading.step]
              by_cases hempty : (s.hgetall .alarm device id).isEmpty
              · simp only [NativePath.database, NativePath.device, hempty, if_true] at hitems ⊢
                refine ⟨hnodup, hcover, howed, seen ++ [id], hseen', ?_⟩
                simp [collect_append, hitems, collect, hempty]
              · simp only [NativePath.database, NativePath.device, hempty, if_false,
                  Bool.false_eq_true] at hitems ⊢
                cases hrender : renderAlarm id (s.hgetall .alarm device id) with
                | none => trivial
                | some item =>
                    refine ⟨hnodup, hcover, howed, seen ++ [id], hseen', ?_⟩
                    have hone : collect (s.hgetall .alarm device) renderAlarm [id] = some [item] := by
                      simp [collect, hempty, hrender]
                    simp [collect_append, hitems, hone]
      | _ => exact h.elim

/-- Only a hash that is not there is reported missing. -/
theorem step_missing {reading : Reading} {reply : ScanReply}
    (h : reading.step s path reply = .done none) : s.snapshot path = some none := by
  cases reading with
  | hash =>
      cases path <;> simp only [Reading.step, Snapshots.snapshot] at h ⊢
      all_goals first | cases h | skip
      all_goals split at h <;> simp_all
  | members rest entries =>
      cases rest with
      | nil => simp [Reading.step] at h
      | cons id rest =>
          simp only [Reading.step] at h
          split_ifs at h
          split at h <;> cases h
  | alarmScan owed returned page finished items =>
      cases page with
      | nil =>
          cases finished with
          | false => simp [Reading.step] at h
          | true =>
              simp only [Reading.step] at h
              split at h <;> cases h
      | cons id page =>
          simp only [Reading.step] at h
          split_ifs at h
          split at h <;> cases h
  | device => cases path <;> cases h
  | scan owed ids =>
      simp only [Reading.step] at h
      split_ifs at h

/-- A write that leaves the rows of the path alone does not disturb its read. -/
theorem Fresh.written {reading : Reading} (h : Fresh s path reading)
    (hsame : Snapshots.Same s t path) : Fresh t path (reading.written t path) := by
  cases path with
  | connectionState device id => cases reading <;> trivial
  | alarm device id => cases reading <;> trivial
  | connections device =>
      have hrows : t.rows .state device = s.rows .state device := hsame.rows fun _ => rfl
      have hids : t.ids (.connections device) = s.ids (.connections device) := by
        simp only [Snapshots.ids, NativePath.database, NativePath.device, hrows]
      have hget : t.hgetall .state device = s.hgetall .state device := by
        funext id
        simp only [Snapshots.hgetall]
        rw [hrows]
      cases reading with
      | device => trivial
      | scan owed ids =>
          intro id hid
          rw [List.mem_filter]
          rcases h id (hids ▸ hid) with howed | hfound
          · exact .inl ⟨howed, by simpa using hid⟩
          · exact .inr hfound
      | members rest entries =>
          simp only [Reading.written, Fresh, Snapshots.sortedIds, NativePath.database,
            NativePath.device, hids, hget] at h ⊢
          exact h
      | _ => exact h.elim
  | alarms device =>
      have hrows : t.rows .alarm device = s.rows .alarm device := hsame.rows fun _ => rfl
      have hids : t.ids (.alarms device) = s.ids (.alarms device) := by
        simp only [Snapshots.ids, NativePath.database, NativePath.device, hrows]
      have hget : t.hgetall .alarm device = s.hgetall .alarm device := by
        funext id
        simp only [Snapshots.hgetall]
        rw [hrows]
      cases reading with
      | device => trivial
      | alarmScan owed returned page finished items =>
          obtain ⟨hnodup, hcover, howed, seen, hseen, hitems⟩ := h
          refine ⟨hnodup, ?_, ?_, seen, hseen, ?_⟩
          · intro id hid
            rw [List.mem_filter]
            rcases hcover id (hids ▸ hid) with hin | hret
            · exact .inl ⟨hin, by simpa using hid⟩
            · exact .inr hret
          · intro hfinished
            simp [howed hfinished]
          · simp only [NativePath.database, NativePath.device, hget] at hitems ⊢
            exact hitems
      | _ => exact h.elim

end Reading

/-! ## The account of what was sent -/

namespace Subscriber

variable {plan : SubscriptionPlan} {s t : Snapshots} {c : Subscriber}

/-- `previous` is what was said last, and nothing is said twice. -/
structure Told (c : Subscriber) : Prop where
  length : c.baselines.length = c.previous.length
  last : ∀ i payload, c.previous[i]? = some payload →
    (c.values i).getLast?.or c.baselines[i]? = some payload
  later : ∀ i, c.previous.length ≤ i → c.values i = []
  chain : ∀ i, (c.values i).IsChain (· ≠ ·)

theorem Told.congr {d : Subscriber} (h : Told c) (hprevious : d.previous = c.previous)
    (hbaselines : d.baselines = c.baselines) (hvalues : ∀ i, d.values i = c.values i) : Told d := by
  constructor
  · rw [hbaselines, hprevious]; exact h.length
  · intro i payload hi
    rw [hvalues, hbaselines]
    exact h.last i payload (hprevious ▸ hi)
  · intro i hi
    rw [hvalues]
    exact h.later i (hprevious ▸ hi)
  · intro i
    rw [hvalues]
    exact h.chain i

theorem Told.lastValue (h : Told c) {i : Nat} {payload : Option Payload}
    (hi : c.previous[i]? = some payload) : c.lastValue i = payload := by
  rw [Subscriber.lastValue, h.last i payload hi, Option.getD_some]

theorem nextBaseline_of_some {path : NativePath}
    (h : plan.subscriptions[c.previous.length]? = some path) :
    c.nextBaseline plan = { c with phase := .baseline path (.start path) } := by
  simp only [nextBaseline, h]

theorem nextBaseline_of_none (h : plan.subscriptions[c.previous.length]? = none) :
    c.nextBaseline plan =
      { c with phase := .waiting fun _ => none, sent := c.sent ++ [.sync] } := by
  simp only [nextBaseline, h]

theorem nextEvent_of_some {event : StreamEvent} {index : Nat} {rest : List (StreamEvent × Nat)}
    {path : NativePath} (h : plan.subscriptions[index]? = some path) :
    c.nextEvent plan ((event, index) :: rest) =
      { c with phase := .handling path (.start path) event index rest } := by
  simp only [nextEvent, h]

theorem nextEvent_of_none {event : StreamEvent} {index : Nat} {rest : List (StreamEvent × Nat)}
    (h : plan.subscriptions[index]? = none) :
    c.nextEvent plan ((event, index) :: rest) = { c with phase := .closed } := by
  simp only [nextEvent, h]

theorem Told.nextBaseline (h : Told c) (plan : SubscriptionPlan) : Told (c.nextBaseline plan) := by
  cases hpath : plan.subscriptions[c.previous.length]? with
  | some path =>
      rw [nextBaseline_of_some hpath]
      exact h.congr rfl rfl fun _ => rfl
  | none =>
      rw [nextBaseline_of_none hpath]
      refine h.congr rfl rfl fun i => ?_
      simp [values, Response.valueFor]

theorem Told.nextEvent (h : Told c) (plan : SubscriptionPlan) (work : List (StreamEvent × Nat)) :
    Told (c.nextEvent plan work) := by
  cases work with
  | nil => exact h.congr rfl rfl fun _ => rfl
  | cons first rest =>
      obtain ⟨event, index⟩ := first
      cases hpath : plan.subscriptions[index]? with
      | some path =>
          rw [nextEvent_of_some hpath]
          exact h.congr rfl rfl fun _ => rfl
      | none =>
          rw [nextEvent_of_none hpath]
          exact h.congr rfl rfl fun _ => rfl

theorem Told.baseline (h : Told c) (payload : Option Payload) (response : Option Response)
    (hresponse : response = none ∨
      ∃ now, response = some (.notification c.previous.length payload now)) :
    Told { c with
      previous := c.previous ++ [payload]
      baselines := c.baselines ++ [payload]
      sent := c.sent ++ response.toList } := by
  have hvalues : ∀ i, (c.sent ++ response.toList).filterMap (Response.valueFor i) =
      c.values i ++ (response.bind (Response.valueFor i)).toList := by
    intro i
    rw [List.filterMap_append, values]
    congr 1
    cases response with
    | none => rfl
    | some r => cases hv : r.valueFor i <;> simp [hv]
  have hother : ∀ i, i ≠ c.previous.length → response.bind (Response.valueFor i) = none := by
    intro i hi
    rcases hresponse with rfl | ⟨now, rfl⟩
    · rfl
    · simp [Response.valueFor, Ne.symm hi]
  constructor
  · simp [h.length]
  · intro i p hi
    simp only [values]
    rw [hvalues]
    by_cases hnew : i = c.previous.length
    · subst hnew
      have hp : payload = p := by simpa using hi
      subst hp
      rw [h.later _ (Nat.le_refl _), List.nil_append]
      rcases hresponse with rfl | ⟨now, rfl⟩
      · simp [← h.length]
      · simp [Response.valueFor]
    · have hlt : i < c.previous.length := by
        obtain ⟨hlt, -⟩ := List.getElem?_eq_some_iff.mp hi
        simp only [List.length_append, List.length_singleton] at hlt
        omega
      rw [hother i hnew, List.getElem?_append_left (h.length ▸ hlt)]
      rw [List.getElem?_append_left hlt] at hi
      simpa using h.last i p hi
  · intro i hi
    simp only [List.length_append, List.length_singleton] at hi
    simp only [values]
    rw [hvalues, h.later i (by omega), hother i (by omega)]
    rfl
  · intro i
    simp only [values]
    rw [hvalues]
    by_cases hnew : i = c.previous.length
    · subst hnew
      rw [h.later _ (Nat.le_refl _), List.nil_append]
      cases response.bind (Response.valueFor c.previous.length) <;> simp
    · rw [hother i hnew]
      simpa using h.chain i

theorem Told.event (h : Told c) {index : Nat} {old payload : Option Payload} {time : Int}
    (hold : c.previous[index]? = some old) (hne : old ≠ payload) :
    Told { c with
      previous := c.previous.set index payload
      sent := c.sent ++ [.notification index payload time] } := by
  obtain ⟨hlt, -⟩ := List.getElem?_eq_some_iff.mp hold
  have hvalues : ∀ i, (c.sent ++ [Response.notification index payload time]).filterMap
      (Response.valueFor i) = c.values i ++ if index = i then [payload] else [] := by
    intro i
    rw [List.filterMap_append, values]
    congr 1
    split_ifs with hi <;> simp [Response.valueFor, hi]
  constructor
  · simp [h.length]
  · intro i p hi
    simp only [values]
    rw [hvalues]
    by_cases hi' : index = i
    · subst hi'
      have hp : payload = p := by simpa [hlt] using hi
      simp [hp]
    · rw [List.getElem?_set_ne hi'] at hi
      simpa [hi'] using h.last i p hi
  · intro i hi
    simp only [List.length_set] at hi
    simp only [values]
    rw [hvalues, h.later i hi, if_neg (by omega)]
    rfl
  · intro i
    simp only [values]
    rw [hvalues]
    by_cases hi : index = i
    · subst hi
      rw [if_pos rfl, List.isChain_append]
      refine ⟨h.chain index, by simp, ?_⟩
      intro x hx y hy
      have hlast := h.last index old hold
      rw [Option.mem_def.mp hx, Option.some_or, Option.some.injEq] at hlast
      simp only [List.head?_cons, Option.mem_def, Option.some.injEq] at hy
      rw [hlast, ← hy]
      exact hne
    · rw [if_neg hi, List.append_nil]
      exact h.chain i

/-! ## Values that may be out of date -/

/-- A matching event lies beyond the cursor of its stream. -/
def Unread (s : Snapshots) (c : Subscriber) (path : NativePath) : Prop :=
  ∃ entry ∈ (s.log path.database).drop (c.cursors path.database),
    ∃ event, parseEvent path.database entry = some event ∧ path.matchesEvent event

/-- Every known value is the snapshot, or a matching event is unread or queued. -/
def Covered (plan : SubscriptionPlan) (s : Snapshots) (c : Subscriber) (queued : List Nat) : Prop :=
  ∀ i path payload, plan.subscriptions[i]? = some path → c.previous[i]? = some payload →
    s.snapshot path = some payload ∨ Unread s c path ∨ i ∈ queued

def PhaseOk (plan : SubscriptionPlan) (s : Snapshots) (c : Subscriber) : Prop :=
  match c.phase with
  | .cursors _ => c.previous = []
  | .baseline path reading =>
      plan.subscriptions[c.previous.length]? = some path ∧ Covered plan s c [] ∧
        (reading.Fresh s path ∨ Unread s c path)
  | .waiting batches =>
      c.previous.length = plan.subscriptions.length ∧ Covered plan s c [] ∧
        ∀ database batch, batches database = some batch →
          batch <+: (s.log database).drop (c.cursors database)
  | .handling path reading _ index rest =>
      c.previous.length = plan.subscriptions.length ∧ plan.subscriptions[index]? = some path ∧
        Covered plan s c (index :: rest.map Prod.snd) ∧
        (reading.Fresh s path ∨ Unread s c path ∨ index ∈ rest.map Prod.snd)
  | .closed => True

structure Sound (plan : SubscriptionPlan) (s : Snapshots) (c : Subscriber) : Prop where
  named : s.Named
  bound : ∀ database, c.cursors database ≤ (s.log database).length
  told : c.Told
  phase : PhaseOk plan s c

theorem drop_writes (h : s.Writes t) {database : Database} {n : Nat}
    (hn : n ≤ (s.log database).length) :
    ∃ entries, t.log database = s.log database ++ entries ∧
      (t.log database).drop n = (s.log database).drop n ++ entries := by
  obtain ⟨entries, hlog, -⟩ := h.2 database
  exact ⟨entries, hlog, by rw [hlog, List.drop_append_of_le_length hn]⟩

theorem Unread.writes (h : s.Writes t) (hbound : ∀ database, c.cursors database ≤ (s.log database).length)
    {path : NativePath} (hunread : Unread s c path) : Unread t c path := by
  obtain ⟨entry, hentry, hevent⟩ := hunread
  obtain ⟨entries, -, hdrop⟩ := drop_writes h (hbound path.database)
  exact ⟨entry, by rw [hdrop]; exact List.mem_append_left _ hentry, hevent⟩

/-- What a write changes is beyond the cursors. -/
theorem same_or_unread (h : s.Writes t)
    (hbound : ∀ database, c.cursors database ≤ (s.log database).length) (path : NativePath) :
    Snapshots.Same s t path ∨ Unread t c path := by
  rcases h.same_or_matches path with hsame | ⟨entries, hlog, entry, hentry, hevent⟩
  · exact .inl hsame
  · right
    refine ⟨entry, ?_, hevent⟩
    rw [hlog, List.drop_append_of_le_length (hbound _)]
    exact List.mem_append_right _ hentry

theorem Covered.writes {queued : List Nat} (hcovered : Covered plan s c queued) (h : s.Writes t)
    (hbound : ∀ database, c.cursors database ≤ (s.log database).length) :
    Covered plan t c queued := by
  intro i path payload hpath hpayload
  rcases hcovered i path payload hpath hpayload with hsnapshot | hunread | hqueued
  · rcases same_or_unread h hbound path with hsame | hunread
    · exact .inl (hsame.snapshot.trans hsnapshot)
    · exact .inr (.inl hunread)
  · exact .inr (.inl (hunread.writes h hbound))
  · exact .inr (.inr hqueued)

theorem Sound.write (h : Sound plan s c) (hw : s.Writes t) : Sound plan t (c.written t) := by
  have hbound : ∀ database, c.cursors database ≤ (t.log database).length := by
    intro database
    obtain ⟨entries, hlog, -⟩ := hw.2 database
    rw [hlog, List.length_append]
    exact Nat.le_add_right_of_le (h.bound database)
  have hphase := h.phase
  have hread : ∀ {path : NativePath} {reading : Reading}, reading.Fresh s path →
      (reading.written t path).Fresh t path ∨ Unread t c path := by
    intro path reading hfresh
    rcases same_or_unread hw h.bound path with hsame | hunread
    · exact .inl (hfresh.written hsame)
    · exact .inr hunread
  unfold PhaseOk at hphase
  unfold Subscriber.written
  split at hphase
  case h_1 heq =>
      simp only [heq]
      exact ⟨hw.1, hbound, h.told, by simpa only [PhaseOk, heq] using hphase⟩
  case h_2 path reading heq =>
      obtain ⟨hpath, hcovered, hfresh⟩ := hphase
      simp only [heq]
      refine ⟨hw.1, hbound, h.told.congr rfl rfl fun _ => rfl, hpath,
        hcovered.writes hw h.bound, ?_⟩
      rcases hfresh with hfresh | hunread
      · exact hread hfresh
      · exact .inr (hunread.writes hw h.bound)
  case h_3 batches heq =>
      obtain ⟨hlength, hcovered, hbatches⟩ := hphase
      simp only [heq]
      refine ⟨hw.1, hbound, h.told, ?_⟩
      simp only [PhaseOk, heq]
      refine ⟨hlength, hcovered.writes hw h.bound, ?_⟩
      intro database batch hbatch
      obtain ⟨entries, -, hdrop⟩ := drop_writes hw (h.bound database)
      rw [hdrop]
      exact (hbatches database batch hbatch).trans (List.prefix_append _ _)
  case h_4 path reading event index rest heq =>
      obtain ⟨hlength, hpath, hcovered, hfresh⟩ := hphase
      simp only [heq]
      refine ⟨hw.1, hbound, h.told.congr rfl rfl fun _ => rfl, hlength, hpath,
        hcovered.writes hw h.bound, ?_⟩
      rcases hfresh with hfresh | hunread | hqueued
      · rcases hread hfresh with hfresh | hunread
        · exact .inl hfresh
        · exact .inr (.inl hunread)
      · exact .inr (.inl (hunread.writes hw h.bound))
      · exact .inr (.inr hqueued)
  case h_5 heq =>
      simp only [heq]
      exact ⟨hw.1, hbound, h.told, by simp only [PhaseOk, heq]⟩

/-! ## The steps of the subscriber -/

theorem sound_nextBaseline (hnamed : s.Named)
    (hbound : ∀ database, c.cursors database ≤ (s.log database).length) (htold : c.Told)
    (hlength : c.previous.length ≤ plan.subscriptions.length) (hcovered : Covered plan s c []) :
    Sound plan s (c.nextBaseline plan) := by
  have htold' := htold.nextBaseline plan
  cases hpath : plan.subscriptions[c.previous.length]? with
  | some path =>
      rw [nextBaseline_of_some hpath] at htold' ⊢
      exact ⟨hnamed, hbound, htold', hpath, hcovered, .inl (Reading.fresh_start s path)⟩
  | none =>
      rw [nextBaseline_of_none hpath] at htold' ⊢
      have hend : c.previous.length = plan.subscriptions.length :=
        Nat.le_antisymm hlength (List.getElem?_eq_none_iff.mp hpath)
      exact ⟨hnamed, hbound, htold', hend, hcovered, fun database batch hbatch => by cases hbatch⟩

theorem sound_nextEvent (hnamed : s.Named)
    (hbound : ∀ database, c.cursors database ≤ (s.log database).length) (htold : c.Told)
    (hlength : c.previous.length = plan.subscriptions.length) (work : List (StreamEvent × Nat))
    (hcovered : Covered plan s c (work.map Prod.snd)) : Sound plan s (c.nextEvent plan work) := by
  have htold' := htold.nextEvent plan work
  cases work with
  | nil => exact ⟨hnamed, hbound, htold', hlength, hcovered, fun database batch hbatch => by cases hbatch⟩
  | cons first rest =>
      obtain ⟨event, index⟩ := first
      cases hpath : plan.subscriptions[index]? with
      | some path =>
          rw [nextEvent_of_some hpath] at htold' ⊢
          exact ⟨hnamed, hbound, htold', hlength, hpath, hcovered,
            .inl (Reading.fresh_start s path)⟩
      | none =>
          rw [nextEvent_of_none hpath] at htold' ⊢
          exact ⟨hnamed, hbound, htold', trivial⟩

theorem Sound.close (h : Sound plan s c) : Sound plan s { c with phase := .closed } :=
  ⟨h.named, h.bound, h.told.congr rfl rfl fun _ => rfl, trivial⟩

theorem Sound.capture (h : Sound plan s c) : Sound plan s (c.capture plan s) := by
  unfold Subscriber.capture
  split
  · rename_i heq
    have hphase := h.phase
    simp only [PhaseOk, heq] at hphase
    apply sound_nextBaseline h.named h.bound h.told
    · simp [hphase]
    · intro i path payload _ hpayload
      simp [hphase] at hpayload
  · rename_i database rest heq
    have hphase := h.phase
    simp only [PhaseOk, heq] at hphase
    refine ⟨h.named, ?_, h.told.congr rfl rfl fun _ => rfl, hphase⟩
    intro other
    by_cases hother : other = database
    · subst hother
      simp
    · simpa [Function.update_of_ne hother] using h.bound other
  · exact h

/-- A baseline that is now known. -/
theorem Covered.baseline {payload : Option Payload} {path : NativePath}
    (hcovered : Covered plan s c []) (hpath : plan.subscriptions[c.previous.length]? = some path)
    (hpayload : s.snapshot path = some payload ∨ Unread s c path) {d : Subscriber}
    (hcursors : d.cursors = c.cursors) (hprevious : d.previous = c.previous ++ [payload]) :
    Covered plan s d [] := by
  intro i path' payload' hpath' hpayload'
  have hunread : ∀ path, Unread s c path → Unread s d path := by
    intro path hunread
    rwa [Unread, hcursors]
  rw [hprevious] at hpayload'
  by_cases hi : i < c.previous.length
  · rw [List.getElem?_append_left hi] at hpayload'
    rcases hcovered i path' payload' hpath' hpayload' with hsnapshot | hun | hqueued
    · exact .inl hsnapshot
    · exact .inr (.inl (hunread _ hun))
    · cases hqueued
  · have hlast : i = c.previous.length := by
      obtain ⟨hlt, -⟩ := List.getElem?_eq_some_iff.mp hpayload'
      simp only [List.length_append, List.length_singleton] at hlt
      omega
    subst hlast
    have hp : payload = payload' := by simpa using hpayload'
    have hpath_eq : path = path' := Option.some.inj (hpath.symm.trans hpath')
    subst hp hpath_eq
    exact hpayload.imp id fun hun => .inl (hunread _ hun)

/-- A subscription that has been read again is queued no longer. -/
theorem Covered.event {payload : Option Payload} {path : NativePath} {index : Nat}
    {rest : List Nat} (hcovered : Covered plan s c (index :: rest))
    (hpath : plan.subscriptions[index]? = some path)
    (hpayload : s.snapshot path = some payload ∨ Unread s c path ∨ index ∈ rest) {d : Subscriber}
    (hcursors : d.cursors = c.cursors)
    (hprevious : d.previous[index]? = some payload ∧
      ∀ i, i ≠ index → d.previous[i]? = c.previous[i]?) :
    Covered plan s d rest := by
  intro i path' payload' hpath' hpayload'
  have hunread : ∀ path, Unread s c path → Unread s d path := by
    intro path hunread
    rwa [Unread, hcursors]
  by_cases hi : i = index
  · subst hi
    rw [hprevious.1] at hpayload'
    have hpath_eq : path = path' := Option.some.inj (hpath.symm.trans hpath')
    cases hpayload'
    subst hpath_eq
    exact hpayload.imp id fun hun => hun.imp (hunread _) id
  · rw [hprevious.2 i hi] at hpayload'
    rcases hcovered i path' payload' hpath' hpayload' with hsnapshot | hun | hqueued
    · exact .inl hsnapshot
    · exact .inr (.inl (hunread _ hun))
    · rcases List.mem_cons.mp hqueued with rfl | hqueued
      · exact absurd rfl hi
      · exact .inr (.inr hqueued)

theorem sound_baselineRead {payload : Option Payload} {path : NativePath} (now : Int)
    (h : Sound plan s c) (hpath : plan.subscriptions[c.previous.length]? = some path)
    (hcovered : Covered plan s c [])
    (hpayload : s.snapshot path = some payload ∨ Unread s c path) :
    Sound plan s (c.baselineRead plan payload now) := by
  obtain ⟨hlt, -⟩ := List.getElem?_eq_some_iff.mp hpath
  have htold : Told { c with
      previous := c.previous ++ [payload]
      baselines := c.baselines ++ [payload]
      sent := if !plan.updatesOnly && payload.isSome then
          c.sent ++ [.notification c.previous.length payload now]
        else c.sent } := by
    split_ifs
    · exact h.told.baseline payload (some (.notification c.previous.length payload now))
        (.inr ⟨now, rfl⟩)
    · simpa using h.told.baseline payload none (.inl rfl)
  apply sound_nextBaseline h.named _ htold
  · rw [List.length_append]
    exact hlt
  · exact hcovered.baseline hpath hpayload rfl rfl
  · exact h.bound

theorem sound_eventRead {payload : Option Payload} {path : NativePath} {event : StreamEvent}
    {index : Nat} {rest : List (StreamEvent × Nat)} (h : Sound plan s c)
    (hlength : c.previous.length = plan.subscriptions.length)
    (hpath : plan.subscriptions[index]? = some path)
    (hcovered : Covered plan s c (index :: rest.map Prod.snd))
    (hpayload : s.snapshot path = some payload ∨ Unread s c path ∨ index ∈ rest.map Prod.snd) :
    Sound plan s (c.eventRead plan payload event index rest) := by
  obtain ⟨hlt, -⟩ := List.getElem?_eq_some_iff.mp hpath
  rw [← hlength] at hlt
  obtain ⟨old, hold⟩ : ∃ old, c.previous[index]? = some old :=
    ⟨_, List.getElem?_eq_getElem hlt⟩
  unfold eventRead
  by_cases hsame : c.previous[index]? = some payload
  · rw [if_pos hsame]
    apply sound_nextEvent h.named h.bound h.told hlength
    exact hcovered.event hpath hpayload rfl ⟨hsame, fun _ _ => rfl⟩
  · rw [if_neg hsame]
    have hne : old ≠ payload := by
      rintro rfl
      exact hsame hold
    apply sound_nextEvent h.named _ (h.told.event hold hne) (by simpa using hlength)
    · exact hcovered.event hpath hpayload rfl
        ⟨by simp [hlt], fun i hi => List.getElem?_set_ne (Ne.symm hi)⟩
    · exact h.bound

theorem Sound.read (h : Sound plan s c) {reply : ScanReply} {now : Int} {path : NativePath}
    {reading : Reading}
    (hphase : c.phase = .baseline path reading ∨
      ∃ event index rest, c.phase = .handling path reading event index rest)
    (hadmits : reading.Admits s path reply) (hrepeat : reading.NoRepeat reply) :
    Sound plan s (c.read plan s reply now) := by
  have hstep := fun hfresh => Reading.Fresh.step hfresh h.named hadmits hrepeat
  have hok := h.phase
  rcases hphase with heq | ⟨event, index, rest, heq⟩
  · simp only [PhaseOk, heq] at hok
    obtain ⟨hpath, hcovered, hfresh⟩ := hok
    simp only [Subscriber.read, heq]
    cases hprogress : reading.step s path reply with
    | failed => exact h.close
    | more next =>
        simp only [hprogress] at hstep
        exact ⟨h.named, h.bound, h.told.congr rfl rfl fun _ => rfl, hpath, hcovered,
          hfresh.imp hstep id⟩
    | done payload =>
        simp only [hprogress] at hstep
        exact sound_baselineRead now h hpath hcovered (hfresh.imp hstep id)
  · simp only [PhaseOk, heq] at hok
    obtain ⟨hlength, hpath, hcovered, hfresh⟩ := hok
    simp only [Subscriber.read, heq]
    cases hprogress : reading.step s path reply with
    | failed => exact h.close
    | more next =>
        simp only [hprogress] at hstep
        exact ⟨h.named, h.bound, h.told.congr rfl rfl fun _ => rfl, hlength, hpath, hcovered,
          hfresh.imp hstep id⟩
    | done payload =>
        simp only [hprogress] at hstep
        exact sound_eventRead h hlength hpath hcovered (hfresh.imp hstep id)

theorem Sound.fetch (h : Sound plan s c) {database : Database}
    {batches : Database → Option (List Entry)} (heq : c.phase = .waiting batches) :
    Sound plan s (c.fetch s database) := by
  have hok := h.phase
  simp only [PhaseOk, heq] at hok
  obtain ⟨hlength, hcovered, hbatches⟩ := hok
  simp only [Subscriber.fetch, heq]
  refine ⟨h.named, h.bound, h.told.congr rfl rfl fun _ => rfl, hlength, hcovered, ?_⟩
  intro other batch hbatch
  by_cases hother : other = database
  · subst hother
    rw [Function.update_self, Option.some.injEq] at hbatch
    rw [← hbatch]
    exact List.take_prefix _ _
  · rw [Function.update_of_ne hother] at hbatch
    exact hbatches other batch hbatch

theorem Sound.cancel (h : Sound plan s c) : Sound plan s c.cancel := by
  unfold Subscriber.cancel
  split
  · rename_i batches heq
    have hok := h.phase
    simp only [PhaseOk, heq] at hok
    exact ⟨h.named, h.bound, h.told.congr rfl rfl fun _ => rfl, hok.1, hok.2.1,
      fun database batch hbatch => by cases hbatch⟩
  · exact h

theorem mem_matching {events : List StreamEvent} {event : StreamEvent} {i : Nat}
    {path : NativePath} (hevent : event ∈ events) (hpath : plan.subscriptions[i]? = some path)
    (hmatch : path.matchesEvent event) : i ∈ (plan.matching events).map Prod.snd := by
  rw [SubscriptionPlan.matching, List.mem_map]
  refine ⟨(event, i), ?_, rfl⟩
  rw [List.mem_flatMap]
  refine ⟨event, hevent, ?_⟩
  rw [List.mem_map]
  exact ⟨(path, i), List.mem_filter.mpr ⟨List.mk_mem_zipIdx_iff_getElem?.mpr hpath, hmatch⟩, rfl⟩

theorem mem_streams {i : Nat} {path : NativePath} (hpath : plan.subscriptions[i]? = some path) :
    path.database ∈ plan.streams := by
  rw [SubscriptionPlan.streams, List.mem_filter, List.any_eq_true]
  refine ⟨?_, path, List.mem_of_getElem? hpath, by simp⟩
  cases path.database <;> simp

theorem Sound.deliver (h : Sound plan s c) {batches : Database → Option (List Entry)}
    (heq : c.phase = .waiting batches) : Sound plan s (c.deliver plan) := by
  have hok := h.phase
  simp only [PhaseOk, heq] at hok
  obtain ⟨hlength, hcovered, hbatches⟩ := hok
  have hread : ∀ database, (batches database).getD [] <+:
      (s.log database).drop (c.cursors database) := by
    intro database
    cases hbatch : batches database with
    | none => exact List.nil_prefix
    | some batch => exact hbatches database batch hbatch
  simp only [Subscriber.deliver, heq]
  apply sound_nextEvent h.named
  case hlength => exact hlength
  case htold => exact h.told.congr rfl rfl fun _ => rfl
  case hbound =>
    intro database
    have hle := (hread database).length_le
    rw [List.length_drop] at hle
    have hbound := h.bound database
    simp only
    omega
  case hcovered =>
    intro i path payload hpath hpayload
    rcases hcovered i path payload hpath hpayload with hsnapshot | hunread | hqueued
    · exact .inl hsnapshot
    · obtain ⟨entry, hentry, event, hparse, hmatch⟩ := hunread
      obtain ⟨more, hmore⟩ := hread path.database
      rw [← hmore, List.mem_append] at hentry
      rcases hentry with hbatch | hrest
      · refine .inr (.inr (mem_matching ?_ hpath hmatch))
        rw [List.mem_mergeSort, List.mem_flatMap]
        exact ⟨path.database, mem_streams hpath, List.mem_filterMap.mpr ⟨entry, hbatch, hparse⟩⟩
      · refine .inr (.inl ⟨entry, ?_, event, hparse, hmatch⟩)
        simp only
        rw [← List.drop_drop, ← hmore, List.drop_left]
        exact hrest
    · cases hqueued

/-! ## Every run -/

theorem sound_initial (hnamed : s.Named) : Sound plan s (initial plan) := by
  refine ⟨hnamed, fun _ => Nat.zero_le _, ?_, rfl⟩
  constructor
  · rfl
  · intro i payload hi
    simp [initial] at hi
  · intro i _
    rfl
  · intro i
    exact .nil

theorem Sound.step {x y : Snapshots × Subscriber} (h : Sound plan x.1 x.2)
    (hstep : SubscribeStep plan Reading.NoRepeat x y) : Sound plan y.1 y.2 := by
  cases hstep with
  | write t hw => exact h.write hw
  | capture => exact h.capture
  | read reply now path reading hphase hadmits hrepeat => exact h.read hphase hadmits hrepeat
  | fetch database batches heq => exact h.fetch heq
  | deliver batches inputOpen heq =>
      have hd := h.deliver heq
      exact ⟨hd.named, hd.bound, hd.told.congr rfl rfl fun _ => rfl, hd.phase⟩
  | cancel => exact h.cancel
  | close => exact h.close

theorem Sound.run {x : Snapshots × Subscriber} (h : Subscribed plan Reading.NoRepeat x) :
    Sound plan x.1 x.2 := by
  induction h with
  | init hnamed => exact sound_initial hnamed
  | step _ hstep ih => exact ih.step hstep

theorem Sound.snapshot (h : Sound plan s c) (htails : AtTails plan s c) {i : Nat}
    {path : NativePath} (hpath : plan.subscriptions[i]? = some path) :
    s.snapshot path = some (c.lastValue i) := by
  obtain ⟨⟨batches, heq⟩, hcursors⟩ := htails
  have hok := h.phase
  simp only [PhaseOk, heq] at hok
  obtain ⟨hlength, hcovered, -⟩ := hok
  obtain ⟨hlt, -⟩ := List.getElem?_eq_some_iff.mp hpath
  obtain ⟨payload, hpayload⟩ : ∃ payload, c.previous[i]? = some payload :=
    ⟨_, List.getElem?_eq_getElem (hlength ▸ hlt)⟩
  rw [h.told.lastValue hpayload]
  rcases hcovered i path payload hpath hpayload with hsnapshot | hunread | hqueued
  · exact hsnapshot
  · obtain ⟨entry, hentry, -⟩ := hunread
    rw [hcursors _ (mem_streams hpath), List.drop_length] at hentry
    cases hentry
  · cases hqueued

theorem sent_nextEvent (work : List (StreamEvent × Nat)) : (c.nextEvent plan work).sent = c.sent := by
  unfold nextEvent
  split
  · rfl
  · split <;> rfl

theorem sent_nextBaseline (plan : SubscriptionPlan) (c : Subscriber) :
    (c.nextBaseline plan).sent = c.sent ∨ (c.nextBaseline plan).sent = c.sent ++ [.sync] := by
  unfold nextBaseline
  split
  · exact .inl rfl
  · exact .inr rfl

theorem delete_not_baseline {payload : Option Payload} {now time : Int} {i : Nat} :
    (c.baselineRead plan payload now).sent ≠ c.sent ++ [.notification i none time] := by
  intro hsent
  have hlength := congrArg List.length hsent
  unfold baselineRead at hsent hlength
  rcases sent_nextBaseline plan { c with
      previous := c.previous ++ [payload]
      baselines := c.baselines ++ [payload]
      sent := if !plan.updatesOnly && payload.isSome then
          c.sent ++ [.notification c.previous.length payload now]
        else c.sent } with hnext | hnext
  · rw [hnext] at hsent
    simp only at hsent
    split_ifs at hsent with hsome
    · simp only [List.append_cancel_left_eq, List.cons.injEq, Response.notification.injEq,
        and_true] at hsent
      simp [hsent.2.1] at hsome
    · simp at hsent
  · rw [hnext] at hsent hlength
    simp only at hsent hlength
    split_ifs at hsent hlength
    · simp at hlength
    · simp at hsent

/-- A delete tells of a snapshot that is missing now and was not missing before. -/
theorem Sound.delete (h : Sound plan s c) {reply : ScanReply} {now time : Int} {i : Nat}
    (hsent : (c.read plan s reply now).sent = c.sent ++ [.notification i none time]) :
    ∃ path, plan.subscriptions[i]? = some path ∧ s.snapshot path = some none ∧
      c.lastValue i ≠ none := by
  have hok := h.phase
  unfold Subscriber.read at hsent
  split at hsent
  · split at hsent
    · simp at hsent
    · exact absurd hsent delete_not_baseline
    · simp at hsent
  · rename_i path reading event index rest heq
    simp only [PhaseOk, heq] at hok
    obtain ⟨hlength, hpath, -, -⟩ := hok
    split at hsent
    · simp at hsent
    · rename_i payload hprogress
      unfold eventRead at hsent
      by_cases hsame : c.previous[index]? = some payload
      · rw [if_pos hsame, sent_nextEvent] at hsent
        simp at hsent
      · rw [if_neg hsame, sent_nextEvent] at hsent
        simp only [List.append_cancel_left_eq, List.cons.injEq, Response.notification.injEq,
          and_true] at hsent
        obtain ⟨rfl, rfl, -⟩ := hsent
        refine ⟨path, hpath, Reading.step_missing hprogress, ?_⟩
        obtain ⟨hlt, -⟩ := List.getElem?_eq_some_iff.mp hpath
        have hold := List.getElem?_eq_getElem (l := c.previous) (i := index) (hlength ▸ hlt)
        rw [h.told.lastValue hold]
        intro hnone
        exact hsame (hnone ▸ hold)
    · simp at hsent
  · simp at hsent

end Subscriber

/-- What a subscriber is told in one state of a run, and in the step out of it. -/
structure Faithful (plan : SubscriptionPlan) (ok : Reading → ScanReply → Prop) (s : Snapshots)
    (c : Subscriber) : Prop where
  current : AtTails plan s c → ∀ i path, plan.subscriptions[i]? = some path →
    s.snapshot path = some (c.lastValue i)
  once : ∀ i, (c.values i).IsChain (· ≠ ·)
  delete : ∀ t d i time, SubscribeStep plan ok (s, c) (t, d) →
    d.sent = c.sent ++ [.notification i none time] →
    ∃ path, plan.subscriptions[i]? = some path ∧ s.snapshot path = some none ∧ c.lastValue i ≠ none

/-! ## The result -/

section Runs

variable {plan : SubscriptionPlan} {ok : Reading → ScanReply → Prop} {s : Snapshots}
  {c : Subscriber} {path : NativePath} {reading : Reading}

theorem Subscribed.more (h : Subscribed plan ok (s, c)) (reply : ScanReply) (next : Reading)
    (heq : c.phase = .baseline path reading) (hadmits : reading.Admits s path reply)
    (hok : ok reading reply) (hstep : reading.step s path reply = .more next) :
    Subscribed plan ok (s, { c with phase := .baseline path next }) := by
  have hread := h.step (.read reply 0 path reading (.inl heq) hadmits hok)
  simpa only [Subscriber.read, heq, hstep] using hread

theorem Subscribed.known (h : Subscribed plan ok (s, c)) (reply : ScanReply)
    (payload : Option Payload)
    (heq : c.phase = .baseline path reading) (hadmits : reading.Admits s path reply)
    (hok : ok reading reply) (hstep : reading.step s path reply = .done payload) :
    Subscribed plan ok (s, c.baselineRead plan payload 0) := by
  have hread := h.step (.read reply 0 path reading (.inl heq) hadmits hok)
  simpa only [Subscriber.read, heq, hstep] using hread

theorem Subscribed.reread {event : StreamEvent} {index : Nat} {rest : List (StreamEvent × Nat)}
    (h : Subscribed plan ok (s, c)) (reply : ScanReply) (payload : Option Payload)
    (heq : c.phase = .handling path reading event index rest)
    (hadmits : reading.Admits s path reply) (hok : ok reading reply)
    (hstep : reading.step s path reply = .done payload) :
    Subscribed plan ok (s, c.eventRead plan payload event index rest) := by
  have hread := h.step (.read reply 0 path reading (.inr ⟨event, index, rest, heq⟩) hadmits hok)
  simpa only [Subscriber.read, heq, hstep] using hread

theorem Subscribed.delivered {batches : Database → Option (List Entry)}
    (h : Subscribed plan ok (s, c)) (heq : c.phase = .waiting batches)
    (hall : ∀ database ∈ plan.streams, (batches database).isSome) (event : StreamEvent)
    (hevents : (plan.streams.flatMap fun database =>
      ((batches database).getD []).filterMap (parseEvent database)) = [event]) :
    Subscribed plan ok (s, { (Subscriber.nextEvent plan { c with
      cursors := fun database => c.cursors database + ((batches database).getD []).length }
        (plan.matching [event])) with inputOpen := c.inputOpen }) := by
  have hdeliver := h.step (.deliver batches c.inputOpen heq hall id)
  simpa only [Subscriber.deliver, heq, hevents, List.mergeSort_singleton] using hdeliver

end Runs

/-- As long as no iteration of `_alarm_list` returns a key twice. -/
theorem subscriptions_faithful (plan : SubscriptionPlan) (s : Snapshots) (c : Subscriber)
    (h : Subscribed plan Reading.NoRepeat (s, c)) : Faithful plan Reading.NoRepeat s c := by
  have hsound := Subscriber.Sound.run h
  refine ⟨fun htails i path hpath => hsound.snapshot htails hpath, hsound.told.chain, ?_⟩
  intro t d i time hstep hsent
  cases hstep with
  | write t hw =>
      unfold Subscriber.written at hsent
      split at hsent <;> simp at hsent
  | capture =>
      unfold Subscriber.capture at hsent
      split at hsent
      · rcases Subscriber.sent_nextBaseline plan c with hnext | hnext <;>
          simp [hnext] at hsent
      · simp at hsent
      · simp at hsent
  | read reply now path reading hphase hadmits hrepeat => exact hsound.delete hsent
  | fetch database batches heq =>
      simp [Subscriber.fetch, heq] at hsent
  | deliver batches inputOpen heq =>
      simp [Subscriber.deliver, heq, Subscriber.sent_nextEvent] at hsent
  | cancel =>
      unfold Subscriber.cancel at hsent
      split at hsent <;> simp at hsent
  | close => simp at hsent

def connectionRow : Fields := ExtTreeMap.ofList [("applied_version", "1"), ("apply_status", "ACTIVE")]

def connectionEntry : Entry where
  messageId := "1-0"
  fields := ExtTreeMap.ofList [("event_schema_version", "1"), ("event_id", "event-1"),
    ("request_id", "request-1"), ("timestamp_ns", "200"), ("device", "ocs0"),
    ("resource_type", "connection"), ("resource_id", "conn-1"), ("operation", "UPSERT"),
    ("desired_version", "1"), ("payload", "ACTIVE")]

def connectionEvent : StreamEvent :=
  ⟨.state, "1-0", 200, "ocs0", "connection", "conn-1", "UPSERT"⟩

def noConnection : Snapshots := ⟨fun _ _ => ∅, fun _ => []⟩

def oneConnection : Snapshots where
  rows database device := if database = .state ∧ device = "ocs0" then
    ExtTreeMap.ofList [("conn-1", connectionRow)] else ∅
  log database := if database = .state then [connectionEntry] else []

theorem noConnection_writes : noConnection.Writes oneConnection := by
  constructor
  · intro device id fields hrow
    simp [oneConnection] at hrow
  · intro database
    refine ⟨_, rfl, ?_⟩
    intro device id hne
    simp only [oneConnection, noConnection] at hne
    split_ifs at hne with hrow
    · obtain ⟨rfl, rfl⟩ := hrow
      rw [ExtTreeMap.ofList_singleton, ExtTreeMap.getElem?_insert] at hne
      split_ifs at hne with hid
      · rw [← LawfulEqCmp.eq_of_compare hid]
        exact ⟨connectionEntry, List.mem_singleton_self _, connectionEvent, by decide +kernel,
          rfl, rfl, rfl⟩
      · simp at hne
    · simp at hne

def connectionItem : Item :=
  ExtTreeMap.ofList [("applied-version", Value.int 1), ("apply-status", Value.text "ACTIVE")]

theorem subscriptions_faithful_created : ∃ c : Subscriber,
    Subscribed ⟨[.connectionState "ocs0" "conn-1"], false⟩ Reading.NoRepeat (oneConnection, c) ∧
      c.sent = [.sync, .notification 0 (some (.hash connectionItem)) 200] ∧
      oneConnection.snapshot (.connectionState "ocs0" "conn-1") = some (c.lastValue 0) := by
  have h₀ : Subscribed ⟨[.connectionState "ocs0" "conn-1"], false⟩ Reading.NoRepeat
      (noConnection, .initial ⟨[.connectionState "ocs0" "conn-1"], false⟩) :=
    .init fun device id fields hrow => by simp [noConnection] at hrow
  have h₁ := (h₀.step .capture).step .capture
  have h₂ := h₁.known ⟨[], false⟩ none rfl (by decide +kernel) trivial (by decide +kernel)
  have h₃ := h₂.step (.write oneConnection noConnection_writes)
  have h₄ := h₃.step (.fetch .state _ rfl (by decide +kernel) rfl)
  have h₅ := h₄.delivered rfl (by decide +kernel) connectionEvent (by decide +kernel)
  have h₆ := h₅.reread ⟨[], false⟩ (some (.hash connectionItem)) rfl (by decide +kernel) trivial
    (by decide +kernel)
  refine ⟨_, h₆, by decide +kernel, ?_⟩
  exact (subscriptions_faithful _ _ _ h₆).current ⟨⟨_, rfl⟩, by decide +kernel⟩ 0 _ rfl

def portAlarm : Fields := ExtTreeMap.ofList [("id", "port-down"), ("active", "true")]

/-- One alarm is active, and nothing happens any more. -/
def quietAlarm : Snapshots where
  rows database device := if database = .alarm ∧ device = "ocs0" then
    ExtTreeMap.ofList [("port-down", portAlarm)] else ∅
  log _ := []

def alarmPayload : Item :=
  ExtTreeMap.ofList [("active", Value.bool true), ("id", Value.text "port-down")]

def alarmList : SubscriptionPlan := ⟨[.alarms "ocs0"], false⟩

theorem quietAlarm_named : quietAlarm.Named := by
  intro device id fields hrow name hname
  simp only [quietAlarm, true_and] at hrow
  split_ifs at hrow
  · rw [ExtTreeMap.ofList_singleton, ExtTreeMap.getElem?_insert] at hrow
    split_ifs at hrow with hid
    · cases hrow
      have hval : portAlarm["id"]? = some "port-down" := by decide +kernel
      rw [hval] at hname
      rw [← LawfulEqCmp.eq_of_compare hid]
      exact (Option.some.inj hname).symm
    · simp at hrow
  · simp at hrow

theorem sortAlarms_repeated :
    sortAlarms [alarmPayload, alarmPayload] = some [alarmPayload, alarmPayload] := by
  have htext : textId alarmPayload = some "port-down" := by decide +kernel
  rw [sortAlarms, if_pos (by simp [htext]), List.mergeSort_of_pairwise]
  simp

/-- `SCAN` returns the one alarm in two pages; the list that is sent has it twice, and no event
will ever correct it. -/
theorem subscriptions_faithful_fails :
    ¬ ∀ (plan : SubscriptionPlan) (s : Snapshots) (c : Subscriber),
      Subscribed plan (fun _ _ => True) (s, c) → Faithful plan (fun _ _ => True) s c := by
  intro hall
  have h₀ : Subscribed alarmList (fun _ _ => True) (quietAlarm, .initial alarmList) :=
    .init quietAlarm_named
  have h₁ := (h₀.step .capture).step .capture
  have h₂ := h₁.more ⟨[], false⟩ (.alarmScan ["port-down"] [] [] false []) rfl
    (by decide +kernel) trivial (by decide +kernel)
  have h₃ := h₂.more ⟨["port-down"], false⟩
    (.alarmScan [] ["port-down"] ["port-down"] false []) rfl
    (by decide +kernel) trivial (by decide +kernel)
  have h₄ := h₃.more ⟨[], false⟩ (.alarmScan [] ["port-down"] [] false [alarmPayload]) rfl
    (by decide +kernel) trivial (by decide +kernel)
  have h₅ := h₄.more ⟨["port-down"], true⟩
    (.alarmScan [] ["port-down", "port-down"] ["port-down"] true [alarmPayload]) rfl
    (by decide +kernel) trivial (by decide +kernel)
  have h₆ := h₅.more ⟨[], false⟩
    (.alarmScan [] ["port-down", "port-down"] [] true [alarmPayload, alarmPayload]) rfl
    (by decide +kernel) trivial (by decide +kernel)
  have h₇ := h₆.known ⟨[], false⟩ (some (.alarm [alarmPayload, alarmPayload])) rfl
    (by decide +kernel) trivial (by simp only [Reading.step, sortAlarms_repeated])
  have htails := (hall _ _ _ h₇).current ⟨⟨_, rfl⟩, by decide +kernel⟩ 0 (.alarms "ocs0") rfl
  exact absurd htails (by decide +kernel)

end MiniOcs.Gnmi
