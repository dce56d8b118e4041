import MiniOcs.Fifo
import MiniOcs.Device.Fences

/-!
# The replay cache

The map and the queue of stored results are one first-in first-out cache, and a stored result
answers every later call of its operation id while fewer than 4096 new ids came after it.
-/
namespace MiniOcs
open Std

namespace SimulatedOcsDevice

variable {ω : Type} [DecidableEq ω]

/-! ## Map and queue are one cache -/

/-- The queue lists the keys of the map in the order they were stored, each once. -/
structure CacheOk (d : SimulatedOcsDevice ω) : Prop where
  keys : Fifo.keys d.applyResults = d.applyResultOrder
  nodup : d.applyResultOrder.Nodup
  bounded : d.applyResultOrder.length ≤ maxCachedApplyResults

omit [DecidableEq ω] in
theorem CacheOk.length_eq {d : SimulatedOcsDevice ω} (h : CacheOk d) :
    d.applyResults.length = d.applyResultOrder.length := by
  rw [← h.keys, Fifo.keys, List.length_map]

omit [DecidableEq ω] in
theorem CacheOk.congr {d d' : SimulatedOcsDevice ω} (h : CacheOk d)
    (hresults : d'.applyResults = d.applyResults)
    (horder : d'.applyResultOrder = d.applyResultOrder) : CacheOk d' := by
  constructor
  · rw [hresults, horder]
    exact h.keys
  · rw [horder]
    exact h.nodup
  · rw [horder]
    exact h.bounded

theorem filter_of_not_mem {entries : List (ω × ApplyResult)} {op : ω}
    (h : op ∉ Fifo.keys entries) : (entries.filter fun entry => entry.1 ≠ op) = entries := by
  apply List.filter_eq_self.mpr
  intro entry hentry
  rw [decide_eq_true_eq]
  rintro rfl
  exact h (List.mem_map_of_mem hentry)

/-- Taking the oldest key out of the map is taking its entry off the front. -/
theorem CacheOk.evictOldest_results {d : SimulatedOcsDevice ω} (h : CacheOk d) :
    d.evictOldest.applyResults =
      if d.applyResults.length < maxCachedApplyResults then d.applyResults
      else d.applyResults.tail := by
  unfold evictOldest
  split_ifs
  · rfl
  · have hkeys := h.keys
    have hnodup := h.nodup
    cases hresults : d.applyResults with
    | nil =>
        rw [hresults] at hkeys
        rw [← hkeys]
        simp [Fifo.keys, hresults]
    | cons entry rest =>
        rw [hresults] at hkeys
        rw [← hkeys] at hnodup ⊢
        simp only [Fifo.keys, List.map_cons, List.nodup_cons] at hnodup ⊢
        rw [List.filter_cons_of_neg (by simp), filter_of_not_mem hnodup.1]
        rfl

/-- Storing a result under a new id is storing it in the cache. -/
theorem CacheOk.finish_results {d : SimulatedOcsDevice ω} (h : CacheOk d) {options : ApplyOptions ω}
    {op : ω} (hop : options.operationId = some op) (hnew : op ∉ d.applyResultOrder)
    (result : ApplyResult) :
    (d.finish options result).2.applyResults =
      Fifo.record maxCachedApplyResults d.applyResults op result := by
  rw [finish_some result hop]
  show (d.evictOldest.applyResults.filter fun entry => entry.1 ≠ op) ++ [(op, result)] = _
  rw [h.evictOldest_results]
  unfold Fifo.record
  congr 1
  apply filter_of_not_mem
  rw [← h.keys] at hnew
  split_ifs
  · exact hnew
  · intro hmem
    apply hnew
    rw [Fifo.keys, List.map_tail] at hmem
    exact List.mem_of_mem_tail hmem

theorem CacheOk.finish_order {d : SimulatedOcsDevice ω} (h : CacheOk d) {options : ApplyOptions ω}
    {op : ω} (hop : options.operationId = some op) (result : ApplyResult) :
    (d.finish options result).2.applyResultOrder =
      Fifo.keys (Fifo.record maxCachedApplyResults d.applyResults op result) := by
  rw [(d.finish_recorded options result).order op hop, Fifo.keys_record, h.keys]

theorem mem_order_iff {d : SimulatedOcsDevice ω} (h : CacheOk d) (op : ω) :
    op ∈ d.applyResultOrder ↔ ∃ result, d.applyResults.lookup op = some result := by
  rw [← h.keys]
  have hnone : d.applyResults.lookup op = none ↔ ∀ entry ∈ d.applyResults, op != entry.1 :=
    List.lookup_eq_none_iff
  constructor
  · intro hmem
    cases hlookup : d.applyResults.lookup op with
    | some result => exact ⟨result, rfl⟩
    | none =>
        obtain ⟨entry, hentry, rfl⟩ := List.mem_map.mp hmem
        have hne := hnone.mp hlookup entry hentry
        simp at hne
  · rintro ⟨result, hlookup⟩
    by_contra hmem
    have hnil : d.applyResults.lookup op = none := by
      rw [hnone]
      intro entry hentry
      rw [bne_iff_ne]
      rintro rfl
      exact hmem (List.mem_map_of_mem hentry)
    rw [hlookup] at hnil
    cases hnil

theorem CacheOk.fresh {d : SimulatedOcsDevice ω} (h : CacheOk d) {options : ApplyOptions ω} {op : ω}
    (hop : options.operationId = some op) (hnew : d.cachedResult options = none) :
    op ∉ d.applyResultOrder := by
  rw [mem_order_iff h]
  rintro ⟨cached, hcached⟩
  simp only [cachedResult, hop, Option.bind_some] at hnew
  rw [hnew] at hcached
  cases hcached

theorem CacheOk.finish {d : SimulatedOcsDevice ω} (h : CacheOk d) {options : ApplyOptions ω}
    (hnew : d.cachedResult options = none) (result : ApplyResult) :
    CacheOk (d.finish options result).2 := by
  cases hop : options.operationId with
  | none =>
      rw [finish_none result hop]
      exact h
  | some op =>
      have hfresh := h.fresh hop hnew
      constructor
      · rw [h.finish_results hop hfresh, h.finish_order hop]
      · rw [h.finish_order hop]
        apply Fifo.nodup_record
        · rw [h.keys]
          exact h.nodup
        · rw [h.keys]
          exact hfresh
      · rw [h.finish_order hop, Fifo.keys, List.length_map]
        apply Fifo.length_record_le (by decide)
        rw [h.length_eq]
        exact h.bounded

/-! ## What a call stores -/

/-- The id under which a call stores its result. A replay stores nothing. -/
def Call.stores (d : SimulatedOcsDevice ω) : Call ω → Option ω
  | .applyConnections _ options =>
      if (d.cachedResult options).isNone then options.operationId else none
  | _ => none

/-- The ids that a run stores results under, in order; a reset forgets them. -/
def history (d : SimulatedOcsDevice ω) (stored : List ω) : List (Call ω) → List ω
  | [] => stored
  | call :: calls => match call.run d with
      | .ok d' =>
          d'.history (if call.isReset then [] else stored ++ (call.stores d).toList) calls
      | .error _ => stored

/-- The ids that a run meets for the first time since its start. -/
def newIds (d : SimulatedOcsDevice ω) (calls : List (Call ω)) : List ω := d.history [] calls

/-- Whatever its outcome, an uncached call stores its result and nothing else in the cache. -/
theorem Outcome.cache {d : SimulatedOcsDevice ω} {commands : List ConnectionCommand}
    {options : ApplyOptions ω} {r : ApplyResult × SimulatedOcsDevice ω}
    (hout : Outcome d commands options r) :
    ∃ d₀ : SimulatedOcsDevice ω, d₀.applyResults = d.applyResults ∧
      d₀.applyResultOrder = d.applyResultOrder ∧ r = d₀.finish options r.1 := by
  cases hout with
  | refused herror hinvalid => exact ⟨d, rfl, rfl, by rw [finish_fst]⟩
  | injected herror hatomic hvalid harmed =>
      refine ⟨d.disarm, ?_, ?_, by rw [finish_fst]⟩
      · unfold disarm
        split_ifs <;> rfl
      · unfold disarm
        split_ifs <;> rfl
  | @applied copies hatomic hvalid hunarmed hcopies =>
      exact ⟨d.commit commands copies, rfl, rfl, by rw [finish_fst]⟩

/-- What a call that is no reset does to the cache. -/
theorem Sound.call_cache {d : SimulatedOcsDevice ω} (h : Sound d) (hcache : CacheOk d)
    {call : Call ω} (hreset : call.isReset = false) :
    ∃ d', call.run d = .ok d' ∧ Sound d' ∧ CacheOk d' ∧
      match call.stores d with
      | none => d'.applyResults = d.applyResults ∧ d'.applyResultOrder = d.applyResultOrder
      | some op => ∃ result,
          d'.applyResults = Fifo.record maxCachedApplyResults d.applyResults op result := by
  obtain ⟨d', hrun, hcases⟩ := h.call_cases hreset
  obtain ⟨d'', hrun', hsound⟩ := h.call call
  rw [hrun] at hrun'
  cases hrun'
  refine ⟨d', hrun, hsound, ?_⟩
  rcases hcases with ⟨happly, hdist⟩ |
    ⟨commands, options, rfl, result, happly, ⟨hcached, rfl⟩ | ⟨hnew, hout⟩⟩
  · have hstores : call.stores d = none := by
      cases call with
      | applyConnections commands options => exact absurd rfl (happly commands options)
      | _ => rfl
    rw [hstores]
    exact ⟨hcache.congr hdist.applyResults hdist.applyResultOrder, hdist.applyResults,
      hdist.applyResultOrder⟩
  · refine ⟨hcache, ?_⟩
    simp [Call.stores, hcached]
  · obtain ⟨d₀, hres, hord, hfinish⟩ := hout.cache
    have hok₀ := hcache.congr hres hord
    have hd' : d' = (d₀.finish options result).2 := congrArg Prod.snd hfinish
    have hnew₀ : d₀.cachedResult options = none := by
      simpa only [cachedResult, hres] using hnew
    rw [hd']
    refine ⟨hok₀.finish hnew₀ result, ?_⟩
    simp only [Call.stores, hnew, Option.isNone_none, ↓reduceIte]
    cases hop : options.operationId with
    | none =>
        rw [finish_none result hop]
        exact ⟨hres, hord⟩
    | some op =>
        exact ⟨result, by rw [hok₀.finish_results hop (hok₀.fresh hop hnew₀), hres]⟩

/-! ## Retention -/

theorem length_history_le {d : SimulatedOcsDevice ω} {stored : List ω} {calls : List (Call ω)}
    (hreset : NoReset calls) : stored.length ≤ (d.history stored calls).length := by
  induction calls generalizing d stored with
  | nil => exact Nat.le_refl _
  | cons call calls ih =>
      unfold history
      rw [hreset call (by simp)]
      split
      · refine Nat.le_trans ?_ (ih fun c hc => hreset c (by simp [hc]))
        simp
      · exact Nat.le_refl _

/-- An entry outlasts a run that stores fewer new ids than there are places. -/
theorem Sound.run_held {d : SimulatedOcsDevice ω} (h : Sound d) (hcache : CacheOk d)
    {calls : List (Call ω)} (hreset : NoReset calls) {op : ω} {result : ApplyResult}
    {stored : List ω} (hheld : Fifo.Held d.applyResults op result stored.length)
    (hlen : (d.history stored calls).length < maxCachedApplyResults) :
    ∃ d', d.runCalls calls = .ok d' ∧ d'.applyResults.lookup op = some result := by
  induction calls generalizing d stored with
  | nil =>
      refine ⟨d, rfl, hheld.lookup ?_⟩
      rw [hcache.keys]
      exact hcache.nodup
  | cons call calls ih =>
      obtain ⟨d', hrun, hsound, hcache', hstores⟩ := h.call_cache hcache (hreset call (by simp))
      have hrest : NoReset calls := fun c hc => hreset c (by simp [hc])
      simp only [history, hrun, hreset call (by simp), Bool.false_eq_true, ↓reduceIte] at hlen
      simp only [SimulatedOcsDevice.runCalls, hrun]
      apply ih hsound hcache' hrest _ hlen
      have hle : (stored ++ (call.stores d).toList).length ≤
          (d'.history (stored ++ (call.stores d).toList) calls).length := length_history_le hrest
      cases hop : call.stores d with
      | none =>
          rw [hop] at hstores
          rw [hstores.1]
          simpa using hheld
      | some op' =>
          rw [hop] at hstores hle
          obtain ⟨result', hresult'⟩ := hstores
          rw [hresult']
          simp only [Option.toList_some, List.length_append, List.length_singleton] at hle ⊢
          rw [hop] at hlen
          exact hheld.record (by simp only [Option.toList_some] at hlen; omega) op' result'

/-! ## Every run -/

/-- The queue is the end of the history. -/
def FollowsHistory (d : SimulatedOcsDevice ω) (stored : List ω) : Prop :=
  d.applyResultOrder = stored.drop (stored.length - maxCachedApplyResults)

theorem Sound.call_history {d : SimulatedOcsDevice ω} (h : Sound d) (hcache : CacheOk d)
    {stored : List ω} (hfollows : FollowsHistory d stored) (call : Call ω) :
    ∃ d', call.run d = .ok d' ∧ Sound d' ∧ CacheOk d' ∧
      FollowsHistory d' (if call.isReset then [] else stored ++ (call.stores d).toList) := by
  cases hreset : call.isReset with
  | false =>
      obtain ⟨d', hrun, hsound, hcache', hstores⟩ := h.call_cache hcache hreset
      refine ⟨d', hrun, hsound, hcache', ?_⟩
      simp only [Bool.false_eq_true, ↓reduceIte]
      unfold FollowsHistory at hfollows ⊢
      cases hop : call.stores d with
      | none =>
          rw [hop] at hstores
          rw [hstores.2, hfollows, Option.toList_none, List.append_nil]
      | some op =>
          rw [hop] at hstores
          obtain ⟨result, hresult⟩ := hstores
          rw [← hcache'.keys, hresult, Option.toList_some]
          apply Fifo.keys_record_drop (by decide)
          rw [hcache.keys, hfollows]
  | true =>
      cases call with
      | reset mode =>
          obtain ⟨r, hr, hsound⟩ := h.reset mode
          refine ⟨r.2, by simp only [Call.run, hr]; rfl, hsound, ?_⟩
          unfold SimulatedOcsDevice.reset at hr
          split at hr
          · cases hr
            exact ⟨⟨rfl, List.nodup_nil, Nat.zero_le _⟩, by simp [FollowsHistory]⟩
          · cases hr
      | _ => cases hreset

theorem Sound.run_history {d : SimulatedOcsDevice ω} (h : Sound d) (hcache : CacheOk d)
    {stored : List ω} (hfollows : FollowsHistory d stored) (calls : List (Call ω)) :
    ∃ d', d.runCalls calls = .ok d' ∧ Sound d' ∧ CacheOk d' ∧
      FollowsHistory d' (d.history stored calls) := by
  induction calls generalizing d stored with
  | nil => exact ⟨d, rfl, h, hcache, hfollows⟩
  | cons call calls ih =>
      obtain ⟨d₁, hrun, hsound, hcache₁, hfollows₁⟩ := h.call_history hcache hfollows call
      simp only [SimulatedOcsDevice.runCalls, history, hrun]
      exact ih hsound hcache₁ hfollows₁

omit [DecidableEq ω] in
theorem empty_construct {info : DeviceInfo} {d : SimulatedOcsDevice ω}
    (h : construct info = some (.ok d)) : d.applyResults = [] ∧ d.applyResultOrder = [] := by
  unfold SimulatedOcsDevice.construct at h
  split at h
  · split_ifs at h
    · cases h
    · cases h
      exact ⟨rfl, rfl⟩
  · cases h

/-- After any run the queue has no duplicates, lists exactly the keys of the map, and is the end
of the ids stored since the last reset, at most 4096 of them. A result that is stored now answers
every call of its id, whatever else the call says, until a reset or 4096 new ids. -/
theorem replay_cache {info : DeviceInfo} {start : SimulatedOcsDevice ω}
    (hstart : construct info = some (.ok start)) (calls : List (Call ω)) :
    ∃ d, start.runCalls calls = .ok d ∧
      d.applyResultOrder.Nodup ∧
      (∀ op, op ∈ d.applyResultOrder ↔ ∃ result, d.applyResults.lookup op = some result) ∧
      d.applyResultOrder.length ≤ 4096 ∧
      d.applyResultOrder = (start.history [] calls).drop ((start.history [] calls).length - 4096) ∧
      ∀ commands options op, options.operationId = some op → d.cachedResult options = none →
        ∃ result d₁, d.applyConnections commands options = .ok (result, d₁) ∧
          ∀ between, NoReset between → (d₁.newIds between).length < 4096 →
            ∃ d₂, d₁.runCalls between = .ok d₂ ∧
              ∀ commands' options', options'.operationId = some op →
                d₂.applyConnections commands' options' = .ok (result, d₂) := by
  obtain ⟨hresults, horder⟩ := empty_construct hstart
  have hcache₀ : CacheOk start := by
    constructor
    · rw [hresults, horder]
      rfl
    · rw [horder]
      exact List.nodup_nil
    · rw [horder]
      exact Nat.zero_le _
  have hfollows₀ : FollowsHistory start [] := by simp [FollowsHistory, horder]
  obtain ⟨d, hrun, hsound, hcache, hfollows⟩ :=
    (Sound.construct hstart).run_history hcache₀ hfollows₀ calls
  have hfollows' : d.applyResultOrder =
      (start.history [] calls).drop ((start.history [] calls).length - 4096) := hfollows
  refine ⟨d, hrun, hcache.nodup, mem_order_iff hcache, hcache.bounded, hfollows', ?_⟩
  intro commands options op hop hnew
  obtain ⟨⟨result, d₁⟩, happly, hout⟩ := hsound.outcome commands hnew
  refine ⟨result, d₁, happly, ?_⟩
  intro between hreset hlen
  obtain ⟨d₀, hres, hord, hfinish⟩ := hout.cache
  have hok₀ := hcache.congr hres hord
  have hnew₀ : d₀.cachedResult options = none := by simpa only [cachedResult, hres] using hnew
  have hd₁ : d₁ = (d₀.finish options result).2 := congrArg Prod.snd hfinish
  obtain ⟨r, hr, hsound₁⟩ := hsound.applyConnections commands options
  rw [happly] at hr
  cases hr
  have hcache₁ : CacheOk d₁ := hd₁ ▸ hok₀.finish hnew₀ result
  have hheld : Fifo.Held d₁.applyResults op result ([] : List ω).length := by
    rw [hd₁, hok₀.finish_results hop (hok₀.fresh hop hnew₀)]
    exact Fifo.held_record ..
  obtain ⟨d₂, hrun₂, hlookup⟩ := hsound₁.run_held hcache₁ hreset hheld hlen
  refine ⟨d₂, hrun₂, ?_⟩
  intro commands' options' hop'
  simp only [SimulatedOcsDevice.applyConnections, cachedResult, hop', Option.bind_some, hlookup]

theorem replay_cache_swapAndDrift :
    construct twoByTwo.info = some (.ok twoByTwo) ∧
    ∃ d, twoByTwo.runCalls swapAndDrift = .ok d ∧
      d.applyResultOrder.Nodup ∧
      (∀ op, op ∈ d.applyResultOrder ↔ ∃ result, d.applyResults.lookup op = some result) ∧
      d.applyResultOrder.length ≤ 4096 ∧
      d.applyResultOrder = (twoByTwo.history [] swapAndDrift).drop
        ((twoByTwo.history [] swapAndDrift).length - 4096) ∧
      ∀ commands options op, options.operationId = some op → d.cachedResult options = none →
        ∃ result d₁, d.applyConnections commands options = .ok (result, d₁) ∧
          ∀ between, NoReset between → (d₁.newIds between).length < 4096 →
            ∃ d₂, d₁.runCalls between = .ok d₂ ∧
              ∀ commands' options', options'.operationId = some op →
                d₂.applyConnections commands' options' = .ok (result, d₂) :=
  have hconstruct : construct twoByTwo.info = some (.ok twoByTwo) := rfl
  ⟨hconstruct, replay_cache hconstruct swapAndDrift⟩

example : twoByTwo.newIds swapAndDrift = ["op1", "op2"] := by decide +kernel

end SimulatedOcsDevice

end MiniOcs
