import Mathlib.Data.List.Infix
import Mathlib.Data.List.Sort
import Mathlib.Data.String.Basic
import MiniOcs.Redis.KeysApart

/-!
# Scans of the keys

A scan of Redis comes in pages: in any order, with repetitions, and without a promise on their
number. `scanKeys` collects them within bounds; what it returns does not depend on the pages.
-/
namespace MiniOcs.Redis
open Separated Gnmi

/-! ## Patterns -/

/-- A star stands for any text. The patterns have no other wildcard. -/
def glob : List Char → List Char → Bool
  | [], text => text.isEmpty
  | '*' :: pattern, text => text.tails.any (glob pattern)
  | _ :: _, [] => false
  | p :: pattern, c :: text => p == c && glob pattern text

def matchesPattern (pattern text : String) : Bool := glob pattern.toList text.toList

def connectionConfigPattern (device : String) : String := key .connectionConfig [device, "*"]
def connectionDevicePattern (device : String) : String := key .connectionDevice [device, "*"]
def connectionStatePattern (device : String) : String := key .connectionState [device, "*"]
def inputPortStatePattern (device : String) : String := key .inputPortState [device, "*"]
def outputPortStatePattern (device : String) : String := key .outputPortState [device, "*"]
def activeAlarmPattern (device : String) : String := key .activeAlarm [device, "*"]
def syncdPortFaultPattern (device : String) : String := key .syncdPortFault [device, "*"]

/-! ## Collecting the pages -/

def visitKey (maxResults : Nat) (result : List String) (key : String) :
    Except String (List String) :=
  if key ∈ result then .ok result
  else if result.length = maxResults then .error "Redis key scan exceeded result bound"
  else .ok (result ++ [key])

/-- The pages up to the one that comes with the cursor 0. -/
def scanPages (maxResults : Nat) : Nat → List String → List (List String) →
    Except String (List String)
  | _, result, [] => .ok result
  | pageCount, result, page :: rest =>
      if pageCount + 1 > 4096 then .error "Redis key scan exceeded page bound"
      else do
        let result ← page.foldlM (visitKey maxResults) result
        scanPages maxResults (pageCount + 1) result rest

def scanKeys (pattern : String) (maxResults : Nat) (pages : List (List String)) :
    Except String (List String) := do
  if pattern = "" ∨ maxResults = 0 then
    .error "Redis key scan requires a pattern and positive bound"
  else
    let result ← scanPages maxResults 0 [] (pages.map (·.filter (matchesPattern pattern)))
    .ok (result.mergeSort fun a b => decide (a ≤ b))

/-! ## What is collected -/

/-- Every key that was seen, once, within the bound. -/
structure Collected (maxResults : Nat) (seen result : List String) : Prop where
  nodup : result.Nodup
  mem : ∀ key, key ∈ result ↔ key ∈ seen
  bound : result.length ≤ maxResults

/-- More different keys than the bound. -/
def Crowded (maxResults : Nat) (seen : List String) : Prop :=
  ∃ keys : List String, keys.Nodup ∧ keys ⊆ seen ∧ maxResults < keys.length

section

variable {maxResults : Nat} {seen result : List String}

theorem Crowded.mono {seen' : List String} (h : Crowded maxResults seen) (hsub : seen ⊆ seen') :
    Crowded maxResults seen' := by
  obtain ⟨keys, hnodup, hkeys, hlength⟩ := h
  exact ⟨keys, hnodup, fun key hkey => hsub (hkeys hkey), hlength⟩

/-- What comes out of a part of the scan that has seen these keys. -/
inductive Outcome (maxResults : Nat) (seen : List String) : Except String (List String) → Prop
  | collected {found} : Collected maxResults seen found → Outcome maxResults seen (.ok found)
  | crowded {message} : Crowded maxResults seen → Outcome maxResults seen (.error message)

theorem outcome_visitKey (h : Collected maxResults seen result) (key : String) :
    Outcome maxResults (seen ++ [key]) (visitKey maxResults result key) := by
  unfold visitKey
  split_ifs with hmem hfull
  · refine .collected ⟨h.nodup, fun k => ?_, h.bound⟩
    rw [List.mem_append, List.mem_singleton, h.mem]
    exact ⟨.inl, fun hk => hk.elim id fun heq => (h.mem k).mp (heq ▸ hmem)⟩
  · refine .crowded ⟨result ++ [key], ?_, fun k hk => ?_, ?_⟩
    · exact List.nodup_append.mpr ⟨h.nodup, List.nodup_singleton key, by grind⟩
    · rw [List.mem_append, h.mem, ← List.mem_append] at hk
      exact hk
    · simp [hfull]
  · refine .collected ⟨?_, fun k => ?_, ?_⟩
    · exact List.nodup_append.mpr ⟨h.nodup, List.nodup_singleton key, by grind⟩
    · rw [List.mem_append, List.mem_append, h.mem]
    · have hbound := h.bound
      rw [List.length_append, List.length_singleton]
      omega

theorem outcome_page (h : Collected maxResults seen result) (page : List String) :
    Outcome maxResults (seen ++ page) (page.foldlM (visitKey maxResults) result) := by
  induction page generalizing seen result with
  | nil => simpa [pure, Except.pure] using Outcome.collected h
  | cons key rest ih =>
      have hkey := outcome_visitKey h key
      rw [List.foldlM_cons, List.append_cons]
      cases hvisit : visitKey maxResults result key with
      | ok next =>
          rw [hvisit] at hkey
          cases hkey with
          | collected hnext => exact ih hnext
      | error message =>
          rw [hvisit] at hkey
          cases hkey with
          | crowded hmany => exact .crowded (hmany.mono (List.subset_append_left _ _))

/-- A scan that fails came in too many pages, or has too many keys. -/
theorem scanPages_cases (pages : List (List String)) {pageCount : Nat}
    (h : Collected maxResults seen result) (hcount : pageCount ≤ 4096) :
    (∃ found, scanPages maxResults pageCount result pages = .ok found ∧
      pageCount + pages.length ≤ 4096 ∧ Collected maxResults (seen ++ pages.flatten) found) ∨
    (∃ message, scanPages maxResults pageCount result pages = .error message ∧
      (4096 < pageCount + pages.length ∨ Crowded maxResults (seen ++ pages.flatten))) := by
  induction pages generalizing seen result pageCount with
  | nil => exact .inl ⟨result, rfl, by simpa using hcount, by simpa using h⟩
  | cons page rest ih =>
      rw [scanPages, List.length_cons]
      split_ifs with hpages
      · exact .inr ⟨_, rfl, .inl (by omega)⟩
      · have hpage := outcome_page h page
        cases hfold : page.foldlM (visitKey maxResults) result with
        | ok next =>
            rw [hfold] at hpage
            cases hpage with
            | collected hnext =>
                rw [List.flatten_cons, ← List.append_assoc,
                  show pageCount + (rest.length + 1) = pageCount + 1 + rest.length by omega]
                exact ih hnext (by omega)
        | error message =>
            rw [hfold] at hpage
            cases hpage with
            | crowded hmany =>
                refine .inr ⟨message, rfl, .inr (hmany.mono fun k hk => ?_)⟩
                rw [List.flatten_cons, ← List.append_assoc]
                exact List.mem_append_left _ hk

end

theorem sorted_mergeSort {result : List String} (h : result.Nodup) :
    (result.mergeSort fun a b => decide (a ≤ b)).Pairwise (· < ·) := by
  have hle := List.pairwise_mergeSort' (· ≤ ·) result
  have hnodup := (List.mergeSort_perm result fun a b => decide (a ≤ b)).nodup_iff.mpr h
  exact (hle.and hnodup).imp fun ⟨hab, hne⟩ => lt_of_le_of_ne hab hne

theorem eq_of_sorted {xs ys : List String} (hxs : xs.Pairwise (· < ·)) (hys : ys.Pairwise (· < ·))
    (h : ∀ key, key ∈ xs ↔ key ∈ ys) : xs = ys := by
  have hnodup : ∀ {zs : List String}, zs.Pairwise (· < ·) → zs.Nodup := fun hzs => hzs.imp ne_of_lt
  have hperm := (List.perm_ext_iff_of_nodup (hnodup hxs) (hnodup hys)).mpr h
  exact hperm.eq_of_pairwise (fun _ _ _ _ hab hba => absurd hba (lt_asymm hab)) hxs hys

/-- What a scan found: all matching keys of its pages, each once, in order, within its bound. -/
structure Found (pattern : String) (maxResults : Nat) (pages : List (List String))
    (keys : List String) : Prop where
  mem : ∀ key, key ∈ keys ↔ (∃ page ∈ pages, key ∈ page) ∧ matchesPattern pattern key = true
  sorted : keys.Pairwise (· < ·)
  bound : keys.length ≤ maxResults

section

variable {pattern : String} {maxResults : Nat} {pages : List (List String)} {keys : List String}

theorem mem_matching (key : String) :
    key ∈ (pages.map (·.filter (matchesPattern pattern))).flatten ↔
      (∃ page ∈ pages, key ∈ page) ∧ matchesPattern pattern key = true := by
  simp only [List.mem_flatten, List.mem_map, exists_exists_and_eq_and, List.mem_filter]
  grind

theorem scanKeys_cases (hpattern : pattern ≠ "") (hbound : 0 < maxResults) :
    (∃ keys, scanKeys pattern maxResults pages = .ok keys ∧ pages.length ≤ 4096 ∧
      Found pattern maxResults pages keys) ∨
    (∃ message, scanKeys pattern maxResults pages = .error message ∧ (4096 < pages.length ∨
      Crowded maxResults (pages.map (·.filter (matchesPattern pattern))).flatten)) := by
  have hstart : Collected maxResults [] [] := ⟨.nil, by simp, by simp⟩
  have hgood : ¬(pattern = "" ∨ maxResults = 0) := by
    rintro (hempty | hzero)
    · exact hpattern hempty
    · exact hbound.ne' hzero
  unfold scanKeys
  rw [if_neg hgood]
  rcases scanPages_cases (pages.map (·.filter (matchesPattern pattern))) hstart
    (Nat.zero_le 4096) with ⟨found, hscan, hpages, hfound⟩ | ⟨message, hscan, hfailed⟩
  · rw [List.length_map, Nat.zero_add] at hpages
    rw [List.nil_append] at hfound
    refine .inl ⟨_, by rw [hscan]; rfl, hpages, ?_, sorted_mergeSort hfound.nodup, ?_⟩
    · intro key
      rw [List.mem_mergeSort, hfound.mem, mem_matching]
    · rw [List.length_mergeSort]
      exact hfound.bound
  · rw [List.length_map, Nat.zero_add, List.nil_append] at hfailed
    exact .inr ⟨message, by rw [hscan]; rfl, hfailed⟩

theorem scanKeys_sound (h : scanKeys pattern maxResults pages = .ok keys) :
    pattern ≠ "" ∧ 0 < maxResults ∧ pages.length ≤ 4096 ∧ Found pattern maxResults pages keys := by
  have hgood : ¬(pattern = "" ∨ maxResults = 0) := by
    intro hbad
    rw [scanKeys, if_pos hbad] at h
    cases h
  rw [not_or] at hgood
  have hbound := Nat.pos_of_ne_zero hgood.2
  rcases scanKeys_cases hgood.1 hbound with
    ⟨found, hscan, hpages, hfound⟩ | ⟨message, hscan, -⟩
  · rw [hscan] at h
    cases h
    exact ⟨hgood.1, hbound, hpages, hfound⟩
  · rw [hscan] at h
    cases h

end

/-- A scan returns all keys of its pages that match, each once and in order, and fails just when
they or the pages are too many. -/
theorem scanKeys_ok_iff (pattern : String) (maxResults : Nat) (pages : List (List String))
    (keys : List String) : scanKeys pattern maxResults pages = .ok keys ↔
      pattern ≠ "" ∧ 0 < maxResults ∧ pages.length ≤ 4096 ∧
        Found pattern maxResults pages keys := by
  constructor
  · exact scanKeys_sound
  · rintro ⟨hpattern, hbound, hpages, hkeys⟩
    rcases scanKeys_cases hpattern hbound with
      ⟨found, hscan, -, hfound⟩ | ⟨message, -, hmany | ⟨others, hnodup, hsub, hlength⟩⟩
    · rw [hscan]
      exact congrArg Except.ok (eq_of_sorted hfound.sorted hkeys.sorted fun key =>
        (hfound.mem key).trans (hkeys.mem key).symm)
    · exact absurd hpages (Nat.not_le.mpr hmany)
    · -- the keys that were too many are all among the ones that were to be returned
      have hsubperm := List.subperm_of_subset hnodup fun key hkey =>
        (hkeys.mem key).mpr ((mem_matching key).mp (hsub hkey))
      have hlen := hsubperm.length_le
      have hbound := hkeys.bound
      omega

/-! ## The resources of a device -/

/-- What follows the last bar. -/
def lastPart (text : String) : String := String.ofList (lastField '|' text.toList)

theorem glob_star {pattern text : List Char} (h : '*' ∉ pattern) :
    glob (pattern ++ ['*']) text = true ↔ pattern <+: text := by
  induction pattern generalizing text with
  | nil =>
      simp only [List.nil_append, glob, List.any_eq_true, List.mem_tails, List.isEmpty_iff,
        List.nil_prefix, iff_true]
      exact ⟨[], List.nil_suffix, rfl⟩
  | cons p pattern ih =>
      rw [List.mem_cons, not_or] at h
      have hp : p ≠ '*' := Ne.symm h.1
      cases text with
      | nil => simp [glob]
      | cons c text =>
          rw [List.cons_append, List.cons_prefix_cons, ← ih h.2]
          simp [glob]

theorem star_name (family : Family) : Free '*' family.name := by
  cases family with
  | syncdDriftAlarmCounterPublication clear => cases clear <;> decide
  | syncdPortAlarmCounterPublication clear => cases clear <;> decide
  | orchAlarmCounterPublication clear => cases clear <;> decide
  | _ => decide

theorem star_of_safe {text : String} (h : isSafeId text = true) : Free '*' text := by
  simp only [isSafeId, Bool.and_eq_true, List.all_eq_true] at h
  exact fun hmem => absurd (h.2 _ hmem) (by decide)

/-- The pattern of a device matches the keys of its resources. -/
theorem matchesPattern_key {family family' : Family} {device : String} {fields : List String}
    (hdevice : isSafeId device = true) (hfields : ∀ field ∈ fields, Free '|' field) :
    matchesPattern (key family [device, "*"]) (key family' fields) = true ↔
      family' = family ∧ ∃ rest ≠ [], fields = device :: rest := by
  have hbar : Free '|' device := (field_of_safe hdevice).bar
  have hstar : '*' ∉ (join '|' [family.name, device, ""]).toList := by
    apply free_join (by decide)
    simp only [List.forall_mem_cons]
    exact ⟨star_name family, star_of_safe hdevice, by decide, by simp⟩
  have hpattern : (key family [device, "*"]).toList =
      (join '|' [family.name, device, ""]).toList ++ ['*'] := by
    simp [key, join]
  have htext : (join '|' [family.name, device, ""]).toList =
      ['|'].intercalate ([family.name, device].map String.toList) ++ ['|'] := by
    simp [join]
  rw [matchesPattern, hpattern, glob_star hstar, htext, key, toList_join, prefix_iff (by simp)
    (by simp) (clear_of_free ?_) (clear_of_free ?_)]
  · constructor
    · rintro ⟨zs, hzs, heq⟩
      cases fields with
      | nil => simp at heq
      | cons field rest =>
          simp only [List.map_cons, List.map_nil, List.cons_append, List.nil_append,
            List.cons.injEq, String.toList_inj] at heq
          refine ⟨Family.name_inj heq.1, rest, ?_, by rw [heq.2.1]⟩
          rintro rfl
          exact hzs heq.2.2.symm
    · rintro ⟨rfl, rest, hrest, rfl⟩
      exact ⟨rest.map String.toList, by simpa using hrest, by simp⟩
  · simp only [List.forall_mem_cons]
    exact ⟨family.bar_name, hbar, by simp⟩
  · simp only [List.forall_mem_cons]
    exact ⟨family'.bar_name, hfields⟩

theorem lastPart_key {family : Family} {before : List String} {id : String} (h : Free '|' id) :
    lastPart (key family (before ++ [id])) = id := by
  apply String.toList_inj.mp
  rw [lastPart, String.toList_ofList, key, toList_join, ← List.cons_append, List.map_append,
    List.map_singleton, lastField_intercalate (by simp) h]

/-- Over keys of any families and devices, the ids behind the last bars of a scan for a family and a
device are those of the resources that the family and the device have. -/
theorem scanKeys_ids {family : Family} {device : String} {maxResults : Nat}
    {pages : List (List (Family × List String))} {keys : List String}
    (hdevice : isSafeId device = true)
    (hpages : ∀ page ∈ pages, ∀ entry ∈ page, ∀ field ∈ entry.2, Free '|' field)
    (h : scanKeys (key family [device, "*"]) maxResults
      (pages.map fun page => page.map fun entry => key entry.1 entry.2) = .ok keys) (id : String) :
    id ∈ keys.map lastPart ↔
      ∃ page ∈ pages, ∃ before, (family, device :: (before ++ [id])) ∈ page := by
  obtain ⟨-, -, -, hfound⟩ := scanKeys_sound h
  have hlast : ∀ (rest : List String), rest ≠ [] → ∃ before last, rest = before ++ [last] :=
    fun rest hrest => ⟨rest.dropLast, rest.getLast hrest, (List.dropLast_append_getLast hrest).symm⟩
  simp only [List.mem_map, hfound.mem]
  constructor
  · rintro ⟨text, ⟨⟨texts, ⟨page, hpage, rfl⟩, htext⟩, hmatch⟩, rfl⟩
    obtain ⟨⟨family', fields⟩, hentry, rfl⟩ := List.mem_map.mp htext
    have hfields := hpages page hpage _ hentry
    obtain ⟨rfl, rest, hrest, rfl⟩ := (matchesPattern_key hdevice hfields).mp hmatch
    obtain ⟨before, last, rfl⟩ := hlast rest hrest
    refine ⟨page, hpage, before, ?_⟩
    rw [← List.cons_append, lastPart_key (hfields last (by simp))]
    exact hentry
  · rintro ⟨page, hpage, before, hentry⟩
    have hfields := hpages page hpage _ hentry
    refine ⟨key family (device :: (before ++ [id])), ⟨⟨_, ⟨page, hpage, rfl⟩, ?_⟩, ?_⟩, ?_⟩
    · exact List.mem_map.mpr ⟨_, hentry, rfl⟩
    · exact (matchesPattern_key hdevice hfields).mpr ⟨rfl, _, by simp, rfl⟩
    · rw [← List.cons_append, lastPart_key (hfields id (by simp))]

def twoDevices : List (List (Family × List String)) :=
  [[(.connectionConfig, ["ocs0", "b"]), (.connectionConfig, ["ocs1", "a"])],
   [(.connectionState, ["ocs0", "c"]), (.connectionConfig, ["ocs0", "b"])]]

theorem scanKeys_ids_twoDevices : "b" ∈ ["OCS_CONNECTION|ocs0|b"].map lastPart ↔
    ∃ page ∈ twoDevices, ∃ before,
      (Family.connectionConfig, "ocs0" :: (before ++ ["b"])) ∈ page := by
  apply @scanKeys_ids .connectionConfig "ocs0" 4096 twoDevices _ (by decide) (by decide)
  decide +kernel

end MiniOcs.Redis
