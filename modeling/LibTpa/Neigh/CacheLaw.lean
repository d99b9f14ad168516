/- LibTpa/Neigh/CacheLaw
   digest: The cache over whole runs: one entry an address, the latest MAC, the gateway's entry. -/

import LibTpa.Lib.Run
import LibTpa.Neigh.Cache

set_option autoImplicit false

namespace LibTpa

open LibTpa.Lib

theorem tpaIpIsIpv4_set (x : U32) : tpaIpIsIpv4 (tpaIpSetIpv4 x) = true := by
  unfold tpaIpIsIpv4 tpaIpSetIpv4
  rw [Bool.and_eq_true, decide_eq_true_iff, decide_eq_true_iff]
  constructor
  · rw [BitVec.extractLsb'_append_eq_of_add_le (by decide)]
    rfl
  · rw [BitVec.extractLsb'_append_eq_of_le (by decide),
      BitVec.extractLsb'_append_eq_of_add_le (by decide)]
    rfl

theorem tpaIpGetIpv4_set (x : U32) : tpaIpGetIpv4 (tpaIpSetIpv4 x) = x := by
  unfold tpaIpGetIpv4 tpaIpSetIpv4
  rw [BitVec.extractLsb'_append_eq_of_le (by decide),
    BitVec.extractLsb'_append_eq_of_le (by decide)]
  exact BitVec.extractLsb'_eq_self

theorem tpaIpSetIpv4_get {ip : TpaIp} (h : tpaIpIsIpv4 ip = true) :
    tpaIpSetIpv4 (tpaIpGetIpv4 ip) = ip := by
  unfold tpaIpIsIpv4 at h
  rw [Bool.and_eq_true, decide_eq_true_iff, decide_eq_true_iff] at h
  unfold tpaIpSetIpv4 tpaIpGetIpv4
  rw [← h.1, ← h.2, BitVec.extractLsb'_append_extractLsb'_eq_extractLsb' (by decide),
    BitVec.extractLsb'_append_extractLsb'_eq_extractLsb' (by decide)]
  exact BitVec.extractLsb'_eq_self

/-- The MAC of the latest update of `ip`, unless its entry was evicted since. -/
def latestMac (ip : TpaIp) (notes : List NeighNote) : Option Mac :=
  notes.foldl (fun m note => match note with
    | .learned j mac => if j = ip then some mac else m
    | .evicted j => if j = ip then none else m) none

/-- The addresses that `neigh_target_ip` takes for what is not on the link. -/
def IsGateway (dev : NeighDev) (ip : TpaIp) : Prop := ip = tpaIpSetIpv4 dev.gw4 ∨ ip = dev.gw6

instance (dev : NeighDev) (ip : TpaIp) : Decidable (IsGateway dev ip) :=
  inferInstanceAs (Decidable (_ ∨ _))

/-- An eviction, if it is of a gateway, comes before any MAC was learned for it. -/
def EvictsNoGateway (dev : NeighDev) (before : List NeighNote) (note : NeighNote) : Prop :=
  ∀ ip, note = .evicted ip → IsGateway dev ip → ∀ mac, .learned ip mac ∉ before

structure NeighLaw (dev : NeighDev) (c : NeighCache) : Prop where
  distinct : (c.entries.map NeighEntry.ip).Nodup
  bounded : c.entries.length ≤ maxNeighEntry
  latest : ∀ ip r, neighLookup dev c ip = some r → r.1 = latestMac (neighTargetIp dev ip) c.notes
  gateway : Run.Always (EvictsNoGateway dev) c.notes

inductive NeighEvent
  | update (ip : TpaIp) (mac : Mac)
  | lookup (ip : TpaIp)

def neighStep? (dev : NeighDev) (c : NeighCache) : NeighEvent → Option NeighCache
  | .update ip mac => neighUpdate dev c ip mac
  | .lookup ip => (neighLookup dev c ip).map Prod.snd

def neighStep (dev : NeighDev) (c : NeighCache) (e : NeighEvent) : NeighCache :=
  (neighStep? dev c e).getD c

/-- What is learned for a gateway is for an address that is in the cache. -/
def GatewayKnown (dev : NeighDev) (c : NeighCache) : NeighEvent → Prop
  | .update ip mac => mac ≠ 0 → IsGateway dev ip → ip ∈ c.entries.map NeighEntry.ip
  | .lookup _ => True

def NeighOk (dev : NeighDev) (c : NeighCache) (e : NeighEvent) : Prop :=
  (neighStep? dev c e).isSome = true ∧ GatewayKnown dev c e

instance (dev : NeighDev) (c : NeighCache) (e : NeighEvent) : Decidable (NeighOk dev c e) :=
  match e with
  | .update ip mac => inferInstanceAs
      (Decidable (_ ∧ (mac ≠ 0 → IsGateway dev ip → ip ∈ c.entries.map NeighEntry.ip)))
  | .lookup _ => inferInstanceAs (Decidable (_ ∧ True))

variable {dev : NeighDev} {c c' : NeighCache} {ip : TpaIp} {mac : Mac}

theorem latestMac_learned (j : TpaIp) (notes : List NeighNote) :
    latestMac j (notes ++ [.learned ip mac]) = if ip = j then some mac else latestMac j notes := by
  unfold latestMac
  rw [List.foldl_append]
  rfl

theorem latestMac_evicted (j : TpaIp) (notes : List NeighNote) :
    latestMac j (notes ++ [.evicted ip]) = if ip = j then none else latestMac j notes := by
  unfold latestMac
  rw [List.foldl_append]
  rfl

inductive NeighAdded (c : NeighCache) (new : NeighEntry) : NeighCache → Prop
  | room (h : c.entries.length ≠ maxNeighEntry) : NeighAdded c new
    { c with entries := c.entries ++ [new] }
  | evicts (idx : Nat) (old : NeighEntry) (rands : List Nat) (h : c.entries[idx]? = some old)
      (hgw : c.gwNeigh ≠ some idx) (hgw6 : c.gw6Neigh ≠ some idx) :
      NeighAdded c new { c with
        entries := c.entries.set idx new
        rands := rands
        notes := c.notes ++ [.evicted old.ip] }

private theorem neighEvict_some {idx : Nat} {rest : List Nat} (rands : List Nat)
    (h : neighEvict c rands = some (idx, rest)) (hne : 0 < c.entries.length) :
    idx < c.entries.length ∧ c.gwNeigh ≠ some idx ∧ c.gw6Neigh ≠ some idx := by
  induction rands with
  | nil => exact absurd h (by simp [neighEvict])
  | cons r rands ih =>
    unfold neighEvict at h
    dsimp only at h
    split at h
    · exact ih h
    · rename_i hfree
      rw [Option.some.injEq, Prod.mk.injEq] at h
      rw [not_or, h.1] at hfree
      refine ⟨?_, hfree⟩
      rw [← h.1]
      exact Nat.mod_lt r hne

theorem neighAdd_cases (h : neighAdd c ip mac = some c') : NeighAdded c ⟨ip, mac⟩ c' := by
  unfold neighAdd at h
  split at h
  swap
  · rename_i hroom
    rw [← Option.some.inj h]
    exact .room hroom
  rename_i hfull
  split at h
  · exact absurd h (Option.some_ne_none c').symm
  rename_i idx rands hev
  have hpos : 0 < c.entries.length := by
    rw [hfull]
    decide
  obtain ⟨hlt, hgw, hgw6⟩ := neighEvict_some c.rands hev hpos
  have hold := List.getElem?_eq_getElem hlt
  rw [← Option.some.inj h, hold]
  exact .evicts idx c.entries[idx] rands hold hgw hgw6

def NeighEntry.mac? (e : NeighEntry) : Option Mac := if e.mac = 0 then none else some e.mac

def cachedMac (c : NeighCache) (ip : TpaIp) : Option Mac := (neighFind c ip).bind NeighEntry.mac?

/-- If a MAC was learned for `ip`, then `ptr` points to its entry. -/
def Pinned (c : NeighCache) (ptr : Option Nat) (ip : TpaIp) : Prop :=
  ∀ mac, .learned ip mac ∈ c.notes → ∃ i e, ptr = some i ∧ c.entries[i]? = some e ∧ e.ip = ip

structure CacheOk (dev : NeighDev) (c : NeighCache) : Prop where
  distinct : (c.entries.map NeighEntry.ip).Nodup
  bounded : c.entries.length ≤ maxNeighEntry
  gw : Pinned c c.gwNeigh (tpaIpSetIpv4 dev.gw4)
  gw6 : Pinned c c.gw6Neigh dev.gw6
  never : Run.Always (EvictsNoGateway dev) c.notes

structure CacheInv (dev : NeighDev) (c : NeighCache) : Prop extends CacheOk dev c where
  known : ∀ ip, cachedMac c ip = latestMac ip c.notes

private theorem notMem_of_evicted {ip j : TpaIp} {notes : List NeighNote}
    (h : .learned ip mac ∈ notes ++ [.evicted j]) : .learned ip mac ∈ notes := by
  rcases List.mem_append.1 h with h | h
  · exact h
  · exact absurd (List.mem_singleton.1 h) (by simp)

private theorem Pinned.append {ptr : Option Nat} (h : Pinned c ptr ip) (new : NeighEntry) :
    Pinned { c with entries := c.entries ++ [new] } ptr ip := by
  intro mac hm
  obtain ⟨i, e, hptr, he, hip⟩ := h mac hm
  refine ⟨i, e, hptr, ?_, hip⟩
  rw [List.getElem?_append_left (List.getElem?_eq_some_iff.1 he).1]
  exact he

private theorem Pinned.evict {ptr : Option Nat} (h : Pinned c ptr ip) {idx : Nat}
    (hne : ptr ≠ some idx) (new : NeighEntry) (rands : List Nat) (j : TpaIp) :
    Pinned { c with
      entries := c.entries.set idx new
      rands := rands
      notes := c.notes ++ [.evicted j] } ptr ip := by
  intro mac hm
  obtain ⟨i, e, hptr, he, hip⟩ := h mac (notMem_of_evicted hm)
  refine ⟨i, e, hptr, ?_, hip⟩
  rw [List.getElem?_set_ne, he]
  rintro rfl
  exact hne hptr

/-- The entry that makes room is not one that a pointer protects. -/
private theorem Pinned.not_old {ptr : Option Nat} (h : Pinned c ptr ip)
    (hd : (c.entries.map NeighEntry.ip).Nodup) {idx : Nat} {old : NeighEntry}
    (hold : c.entries[idx]? = some old) (hne : ptr ≠ some idx) (hip : old.ip = ip) :
    .learned ip mac ∉ c.notes := by
  intro hm
  obtain ⟨i, e, hptr, he, hei⟩ := h mac hm
  have hlt : i < (c.entries.map NeighEntry.ip).length := by
    rw [List.length_map]
    exact (List.getElem?_eq_some_iff.1 he).1
  have hidx : i = idx := by
    apply (List.getElem?_inj hlt hd).1
    rw [List.getElem?_map, List.getElem?_map, he, hold, Option.map_some, Option.map_some, hei, hip]
  exact hne (hidx ▸ hptr)

theorem CacheOk.added {new : NeighEntry} (h : CacheOk dev c) (ha : NeighAdded c new c')
    (hnew : new.ip ∉ c.entries.map NeighEntry.ip) : CacheOk dev c' := by
  cases ha with
  | room hroom =>
    refine ⟨KeyedList.nodup_append h.distinct hnew, ?_, h.gw.append new, h.gw6.append new, h.never⟩
    have := h.bounded
    rw [List.length_append, List.length_singleton]
    omega
  | evicts idx old rands hold hgw hgw6 =>
    refine ⟨KeyedList.nodup_set h.distinct hold (.inl hnew), ?_, h.gw.evict hgw new rands old.ip,
      h.gw6.evict hgw6 new rands old.ip, h.never.snoc ?_⟩
    · rw [List.length_set]
      exact h.bounded
    · intro ip heq hgate mac
      have hip : old.ip = ip := by
        injection heq
      rcases hgate with h4 | h6
      · rw [h4]
        exact h.gw.not_old h.distinct hold hgw (hip.trans h4)
      · rw [h6]
        exact h.gw6.not_old h.distinct hold hgw6 (hip.trans h6)

theorem CacheInv.added {new : NeighEntry} (h : CacheInv dev c) (ha : NeighAdded c new c')
    (hnew : new.ip ∉ c.entries.map NeighEntry.ip) :
    cachedMac c' new.ip = new.mac? ∧ latestMac new.ip c'.notes = none ∧
      ∀ j, j ≠ new.ip → cachedMac c' j = latestMac j c'.notes := by
  have habsent : latestMac new.ip c.notes = none := by
    have hnone : neighFind c new.ip = none := KeyedList.find_eq_none.2 hnew
    rw [← h.known, cachedMac, hnone]
    rfl
  cases ha with
  | room hroom =>
    refine ⟨?_, habsent, fun j hj => ?_⟩
    · unfold cachedMac neighFind
      rw [KeyedList.find_append_self hnew]
      rfl
    · rw [← h.known j]
      unfold cachedMac neighFind
      rw [KeyedList.find_append_of_ne hj]
  | evicts idx old rands hold hgw hgw6 =>
    refine ⟨?_, ?_, fun j hj => ?_⟩
    · unfold cachedMac neighFind
      rw [KeyedList.find_set_self h.distinct hold (.inl hnew)]
      rfl
    · rw [latestMac_evicted, habsent, ite_self]
    · rw [latestMac_evicted, ← h.known j]
      unfold cachedMac neighFind
      rw [KeyedList.find_set_of_ne h.distinct hold (.inl hnew) hj]
      by_cases hjo : j = old.ip
      · rw [if_pos hjo, if_pos hjo.symm]
        rfl
      · rw [if_neg hjo, if_neg (Ne.symm hjo)]

theorem doNeighLookup_fst {r : Option Mac × NeighCache} (h : doNeighLookup c ip = some r) :
    r.1 = cachedMac c ip := by
  unfold doNeighLookup at h
  unfold cachedMac
  split at h
  · rename_i hnone
    obtain ⟨c', -, rfl⟩ := Option.map_eq_some_iff.1 h
    rw [hnone]
    rfl
  · rename_i e hsome
    rw [hsome, ← Option.some.inj h]
    rfl

theorem CacheInv.doNeighLookup {r : Option Mac × NeighCache} (hinv : CacheInv dev c)
    (h : doNeighLookup c ip = some r) : CacheInv dev r.2 := by
  unfold LibTpa.doNeighLookup at h
  split at h
  swap
  · rw [← Option.some.inj h]
    exact hinv
  rename_i hnone
  obtain ⟨c', hadd, rfl⟩ := Option.map_eq_some_iff.1 h
  have hnew : ip ∉ c.entries.map NeighEntry.ip := KeyedList.find_eq_none.1 hnone
  obtain ⟨h1, h2, h3⟩ := hinv.added (neighAdd_cases hadd) hnew
  refine ⟨hinv.toCacheOk.added (neighAdd_cases hadd) hnew, fun j => ?_⟩
  by_cases hj : j = ip
  · rw [hj]
    exact h1.trans h2.symm
  · exact h3 j hj

theorem neighSetGw_of_not (e : Option Nat) (h : ¬ IsGateway dev ip) :
    neighSetGw dev c ip e = c := by
  unfold neighSetGw
  split
  · rename_i h4
    rw [if_neg]
    intro hgw
    apply h
    rw [IsGateway, ← hgw, tpaIpSetIpv4_get h4]
    exact .inl rfl
  · exact if_neg fun h6 => h (.inr h6)

theorem neighSetGw_gw4 (e : Option Nat) :
    neighSetGw dev c (tpaIpSetIpv4 dev.gw4) e = { c with gwNeigh := e } := by
  unfold neighSetGw
  rw [if_pos (tpaIpIsIpv4_set dev.gw4), if_pos (tpaIpGetIpv4_set dev.gw4)]

theorem neighSetGw_gw6 (h6 : tpaIpIsIpv4 dev.gw6 = false) (e : Option Nat) :
    neighSetGw dev c dev.gw6 e = { c with gw6Neigh := e } := by
  unfold neighSetGw
  rw [h6, if_neg Bool.false_ne_true, if_pos rfl]

private theorem EvictsNoGateway.learned (notes : List NeighNote) :
    EvictsNoGateway dev notes (.learned ip mac) := by
  intro j heq
  exact absurd heq (by simp)

private theorem Pinned.learn {ptr : Option Nat} {j : TpaIp} (h : Pinned c ptr j) {i : Nat}
    {old : NeighEntry} (hi : c.entries[i]? = some old) (hold : old.ip = ip) (hj : j ≠ ip) :
    Pinned { c with
      entries := c.entries.set i ⟨ip, mac⟩
      notes := c.notes ++ [.learned ip mac] } ptr j := by
  intro m hm
  have hm' : .learned j m ∈ c.notes := by
    rcases List.mem_append.1 hm with hm | hm
    · exact hm
    · rw [List.mem_singleton, NeighNote.learned.injEq] at hm
      exact absurd hm.1 hj
  obtain ⟨k, e, hptr, he, hei⟩ := h m hm'
  refine ⟨k, e, hptr, ?_, hei⟩
  rw [List.getElem?_set_ne, he]
  rintro rfl
  rw [hi] at he
  exact hj (by rw [← hei, ← Option.some.inj he, hold])

private theorem Pinned.here (c : NeighCache) {i : Nat} {old : NeighEntry}
    (hi : c.entries[i]? = some old) (notes : List NeighNote) :
    Pinned { c with
      entries := c.entries.set i ⟨ip, mac⟩
      notes := notes } (some i) ip := by
  intro m _
  refine ⟨i, ⟨ip, mac⟩, rfl, ?_, rfl⟩
  exact List.getElem?_set_self (List.getElem?_eq_some_iff.1 hi).1

private theorem neighSetGw_frame (e : Option Nat) : (neighSetGw dev c ip e).entries = c.entries ∧
    (neighSetGw dev c ip e).notes = c.notes := by
  unfold neighSetGw
  split
  · split
    · exact ⟨rfl, rfl⟩
    · exact ⟨rfl, rfl⟩
  · split
    · exact ⟨rfl, rfl⟩
    · exact ⟨rfl, rfl⟩

theorem CacheOk.learn (hdev : tpaIpIsIpv4 dev.gw6 = false) (h : CacheOk dev c) {i : Nat}
    {old : NeighEntry} (hi : c.entries[i]? = some old) (hold : old.ip = ip) :
    CacheOk dev (neighSetGw dev { c with
      entries := c.entries.set i ⟨ip, mac⟩
      notes := c.notes ++ [.learned ip mac] } ip (some i)) := by
  have hdistinct : ((c.entries.set i ⟨ip, mac⟩).map NeighEntry.ip).Nodup :=
    KeyedList.nodup_set h.distinct hi (.inr hold.symm)
  have hbounded : (c.entries.set i ⟨ip, mac⟩).length ≤ maxNeighEntry := by
    rw [List.length_set]
    exact h.bounded
  have hnever : Run.Always (EvictsNoGateway dev) (c.notes ++ [.learned ip mac]) :=
    h.never.snoc (EvictsNoGateway.learned c.notes)
  have hdiff : tpaIpSetIpv4 dev.gw4 ≠ dev.gw6 := by
    intro heq
    rw [← heq, tpaIpIsIpv4_set] at hdev
    exact absurd hdev.symm Bool.false_ne_true
  by_cases h4 : ip = tpaIpSetIpv4 dev.gw4
  · subst h4
    rw [neighSetGw_gw4]
    exact ⟨hdistinct, hbounded, Pinned.here c hi _, h.gw6.learn hi hold hdiff.symm, hnever⟩
  by_cases h6 : ip = dev.gw6
  · subst h6
    rw [neighSetGw_gw6 hdev]
    exact ⟨hdistinct, hbounded, h.gw.learn hi hold hdiff, Pinned.here c hi _, hnever⟩
  rw [neighSetGw_of_not _ (not_or.2 ⟨h4, h6⟩)]
  exact ⟨hdistinct, hbounded, h.gw.learn hi hold (Ne.symm h4),
    h.gw6.learn hi hold (Ne.symm h6), hnever⟩

private theorem CacheOk.note (h : CacheOk dev c) (hip : ¬ IsGateway dev ip) :
    CacheOk dev { c with notes := c.notes ++ [.learned ip mac] } := by
  have hpin : ∀ ptr j, j ≠ ip → Pinned c ptr j →
      Pinned { c with notes := c.notes ++ [.learned ip mac] } ptr j := by
    intro ptr j hj hp m hm
    rcases List.mem_append.1 hm with hm | hm
    · exact hp m hm
    · rw [List.mem_singleton, NeighNote.learned.injEq] at hm
      exact absurd hm.1 hj
  refine ⟨h.distinct, h.bounded, hpin _ _ ?_ h.gw, hpin _ _ ?_ h.gw6,
    h.never.snoc (EvictsNoGateway.learned c.notes)⟩
  · exact fun h4 => hip (.inl h4.symm)
  · exact fun h6 => hip (.inr h6.symm)

private theorem mac?_of_ne (h : mac ≠ 0) : NeighEntry.mac? ⟨ip, mac⟩ = some mac := if_neg h

theorem CacheInv.neighUpdate (hdev : tpaIpIsIpv4 dev.gw6 = false) (hinv : CacheInv dev c)
    (hgw : mac ≠ 0 → IsGateway dev ip → ip ∈ c.entries.map NeighEntry.ip)
    (h : neighUpdate dev c ip mac = some c') : CacheInv dev c' := by
  unfold LibTpa.neighUpdate at h
  split at h
  · rw [← Option.some.inj h]
    exact hinv
  rename_i hmac
  cases hf : neighFindLocked c ip with
  | none =>
    rw [hf] at h
    obtain ⟨c₁, hadd, rfl⟩ := Option.map_eq_some_iff.1 h
    have hnew : ip ∉ c.entries.map NeighEntry.ip := KeyedList.index_eq_none.1 hf
    have hnot : ¬ IsGateway dev ip := fun hg => hnew (hgw hmac hg)
    obtain ⟨h1, -, h3⟩ := hinv.added (neighAdd_cases hadd) hnew
    rw [neighSetGw_of_not _ hnot]
    refine ⟨(hinv.toCacheOk.added (neighAdd_cases hadd) hnew).note hnot, fun j => ?_⟩
    rw [latestMac_learned]
    by_cases hj : ip = j
    · rw [if_pos hj, ← hj]
      exact h1.trans (mac?_of_ne hmac)
    · rw [if_neg hj]
      exact h3 j (Ne.symm hj)
  | some i =>
    rw [hf] at h
    rw [← Option.some.inj h]
    obtain ⟨old, hi, hold, -⟩ := KeyedList.index_eq_some hf
    refine ⟨hinv.toCacheOk.learn hdev hi hold, fun j => ?_⟩
    unfold cachedMac neighFind
    rw [(neighSetGw_frame _).1, (neighSetGw_frame _).2, latestMac_learned]
    by_cases hj : ip = j
    · rw [if_pos hj, ← hj, KeyedList.find_set_self hinv.distinct hi (.inr hold.symm)]
      exact mac?_of_ne hmac
    · rw [if_neg hj, ← hinv.known j,
        KeyedList.find_set_of_ne hinv.distinct hi (.inr hold.symm) (Ne.symm hj),
        if_neg (fun hjo => hj (hold.symm.trans hjo.symm))]
      rfl

theorem CacheInv.step (hdev : tpaIpIsIpv4 dev.gw6 = false) (hinv : CacheInv dev c) (e : NeighEvent)
    (hok : NeighOk dev c e) : CacheInv dev (neighStep dev c e) := by
  obtain ⟨hsome, hgw⟩ := hok
  obtain ⟨c', hc'⟩ := Option.isSome_iff_exists.1 hsome
  rw [neighStep, hc', Option.getD_some]
  cases e with
  | update ip mac => exact hinv.neighUpdate hdev hgw hc'
  | lookup ip =>
    obtain ⟨r, hr, rfl⟩ := Option.map_eq_some_iff.1 hc'
    exact hinv.doNeighLookup hr

theorem CacheInv.law (hinv : CacheInv dev c) : NeighLaw dev c := by
  refine ⟨hinv.distinct, hinv.bounded, fun ip r hr => ?_, hinv.never⟩
  rw [doNeighLookup_fst hr, hinv.known]

theorem CacheInv.empty (dev : NeighDev) (garp : Bool) (rands : List Nat) :
    CacheInv dev { acceptGarp := garp, rands := rands } where
  distinct := List.nodup_nil
  bounded := Nat.zero_le _
  gw := fun _ hm => absurd hm List.not_mem_nil
  gw6 := fun _ hm => absurd hm List.not_mem_nil
  never := .nil
  known := fun _ => rfl

/-- From an empty cache, whatever `rand` returns, the law holds as long as each MAC that is
learned for a gateway is for an address that the cache has already. -/
theorem neighCache_law (hdev : tpaIpIsIpv4 dev.gw6 = false) (garp : Bool) (rands : List Nat)
    (h : Run.Reach (neighStep dev) (NeighOk dev) { acceptGarp := garp, rands := rands } c) :
    NeighLaw dev c :=
  (h.invariant (CacheInv.empty dev garp rands) fun _ e hinv hok => hinv.step hdev e hok).law

private theorem neighStep_fresh (htarget : neighTargetIp dev ip = ip)
    (hnew : ip ∉ c.entries.map NeighEntry.ip) (hadd : neighAdd c ip 0 = some c') :
    neighStep dev c (.lookup ip) = c' := by
  have hnone : neighFind c ip = none := KeyedList.find_eq_none.2 hnew
  unfold neighStep neighStep? neighLookup doNeighLookup
  dsimp only
  rw [htarget, hnone]
  rw [hadd]
  rfl

theorem exec_lookups (ips : List TpaIp) : ∀ c : NeighCache,
    (∀ ip ∈ ips, neighTargetIp dev ip = ip) → (c.entries.map NeighEntry.ip ++ ips).Nodup →
    c.entries.length + ips.length ≤ maxNeighEntry →
    Run.exec (neighStep dev) c (ips.map .lookup) =
      { c with entries := c.entries ++ ips.map (⟨·, 0⟩) } := by
  induction ips with
  | nil =>
    intro c _ _ _
    rw [List.map_nil, List.map_nil, List.append_nil]
    rfl
  | cons ip rest ih =>
    intro c htarget hd hlen
    rw [List.length_cons] at hlen
    have hroom : ¬ c.entries.length = maxNeighEntry := by omega
    have hnew : ip ∉ c.entries.map NeighEntry.ip := by
      intro hm
      exact (List.nodup_append.1 hd).2.2 ip hm ip List.mem_cons_self rfl
    have hone : neighStep dev c (.lookup ip) = { c with entries := c.entries ++ [⟨ip, 0⟩] } :=
      neighStep_fresh (htarget ip List.mem_cons_self) hnew (if_neg hroom)
    have hexec : Run.exec (neighStep dev) c ((ip :: rest).map .lookup) =
        Run.exec (neighStep dev) (neighStep dev c (.lookup ip)) (rest.map .lookup) := rfl
    rw [hexec, hone, ih _ (fun j hj => htarget j (List.mem_cons_of_mem ip hj))]
    · rw [List.append_assoc]
      rfl
    · rw [List.map_append, List.append_assoc]
      exact hd
    · rw [List.length_append, List.length_singleton]
      omega

def flatDev : NeighDev := { gw4 := 0xffffffff }

def gwAddr : TpaIp := tpaIpSetIpv4 0xffffffff

def linkAddr (i : Nat) : TpaIp := tpaIpSetIpv4 (BitVec.ofNat 32 i)

private theorem linkAddr_inj {i j : Nat} (hi : i < 2 ^ 32) (hj : j < 2 ^ 32)
    (h : linkAddr i = linkAddr j) :
    i = j := by
  have hget := congrArg tpaIpGetIpv4 h
  rw [linkAddr, linkAddr, tpaIpGetIpv4_set, tpaIpGetIpv4_set] at hget
  have hnat := congrArg BitVec.toNat hget
  rw [BitVec.toNat_ofNat, BitVec.toNat_ofNat, Nat.mod_eq_of_lt hi, Nat.mod_eq_of_lt hj] at hnat
  exact hnat

private theorem linkAddr_target (i : Nat) : neighTargetIp flatDev (linkAddr i) = linkAddr i := by
  unfold neighTargetIp
  rw [linkAddr, tpaIpIsIpv4_set, if_pos rfl, if_neg]
  rw [not_not, tpaIpGetIpv4_set]
  exact BitVec.and_zero

private theorem gwAddr_linkAddrs (n : Nat) (hn : n ≤ 512) :
    (gwAddr :: (List.range n).map linkAddr).Nodup := by
  rw [List.nodup_cons]
  constructor
  · rw [List.mem_map]
    rintro ⟨i, hi, heq⟩
    rw [List.mem_range] at hi
    have := linkAddr_inj (j := 0xffffffff) (by omega) (by decide) heq
    omega
  · apply List.Nodup.map_on _ List.nodup_range
    intro i hi j hj heq
    rw [List.mem_range] at hi hj
    exact linkAddr_inj (by omega) (by omega) heq

/-- The gateway is learned first, and then addresses are looked up. -/
def gatewayRun (ips : List TpaIp) (last : TpaIp) : List NeighEvent :=
  .update gwAddr 1 :: (ips.map .lookup ++ [.lookup last])

private theorem neighAdd_full (rest : List NeighEntry) (hlen : rest.length = 511)
    (notes : List NeighNote) :
    neighAdd { entries := ⟨gwAddr, 1⟩ :: rest, rands := [0], notes := notes } ip 0 =
      some { entries := ⟨ip, 0⟩ :: rest, notes := notes ++ [.evicted gwAddr] } := by
  have hfull : (NeighEntry.mk gwAddr 1 :: rest).length = maxNeighEntry := by
    rw [List.length_cons, hlen]
    rfl
  unfold neighAdd
  rw [if_pos hfull]
  unfold neighEvict
  dsimp only
  rfl

private theorem gatewayRun_evicts {ips : List TpaIp} {last : TpaIp} (hlen : ips.length = 511)
    (hd : (gwAddr :: (ips ++ [last])).Nodup)
    (htarget : ∀ ip ∈ ips ++ [last], neighTargetIp flatDev ip = ip) :
    (Run.exec (neighStep flatDev) { rands := [0] } (gatewayRun ips last)).notes =
      [.learned gwAddr 1, .evicted gwAddr] := by
  have hfirst : neighStep flatDev { rands := [0] } (.update gwAddr 1) =
      { entries := [⟨gwAddr, 1⟩], rands := [0], notes := [.learned gwAddr 1] } := by decide +kernel
  rw [← List.cons_append, List.nodup_append] at hd
  obtain ⟨hips, -, hlast⟩ := hd
  have hfill := exec_lookups ips
    { entries := [⟨gwAddr, 1⟩], rands := [0], notes := [.learned gwAddr 1] }
    (fun ip hip => htarget ip (List.mem_append_left _ hip)) hips (by rw [hlen]; decide)
  have hnew : last ∉ (NeighEntry.mk gwAddr 1 :: ips.map (⟨·, 0⟩)).map NeighEntry.ip := by
    intro hm
    refine hlast last ?_ last (List.mem_singleton.2 rfl) rfl
    rw [List.map_cons, List.map_map, List.mem_cons] at hm
    rcases hm with hm | hm
    · exact List.mem_cons.2 (.inl hm)
    · obtain ⟨ip, hip, rfl⟩ := List.mem_map.1 hm
      exact List.mem_cons_of_mem _ hip
  have hevict :=
    neighStep_fresh (htarget last (List.mem_append_right _ (List.mem_singleton.2 rfl))) hnew
    (neighAdd_full (ips.map (⟨·, 0⟩)) (by rw [List.length_map, hlen]) [.learned gwAddr 1])
  unfold gatewayRun Run.exec
  unfold Run.exec at hfill
  rw [List.foldl_cons, hfirst, List.foldl_append, hfill, List.foldl_cons, List.foldl_nil]
  exact congrArg NeighCache.notes hevict

/-- The first update of the gateway leaves the pointer to its entry unset; once the cache is
full, a look-up evicts it. -/
theorem learnedGateway_evicted :
    let run := gatewayRun ((List.range 511).map linkAddr) (linkAddr 511)
    let c : NeighCache := Run.exec (neighStep flatDev) { rands := [0] } run
    IsGateway flatDev gwAddr ∧ c.notes = [.learned gwAddr 1, .evicted gwAddr] ∧
      ¬ NeighLaw flatDev c := by
  have hsnoc : (List.range 511).map linkAddr ++ [linkAddr 511] = (List.range 512).map linkAddr := by
    rw [show (512 : Nat) = 511 + 1 from rfl, List.range_succ (n := 511), List.map_append,
      List.map_singleton]
  have hd : (gwAddr :: ((List.range 511).map linkAddr ++ [linkAddr 511])).Nodup := by
    rw [hsnoc]
    exact gwAddr_linkAddrs 512 le_rfl
  have htarget : ∀ ip ∈ (List.range 511).map linkAddr ++ [linkAddr 511],
    neighTargetIp flatDev ip = ip := by
    rw [hsnoc]
    intro ip hip
    obtain ⟨i, -, rfl⟩ := List.mem_map.1 hip
    exact linkAddr_target i
  have hnotes := gatewayRun_evicts (by rw [List.length_map, List.length_range]) hd htarget
  dsimp only
  refine ⟨.inl rfl, hnotes, fun hlaw => ?_⟩
  exact hlaw.gateway [.learned gwAddr 1] (.evicted gwAddr) [] hnotes gwAddr rfl (.inl rfl) 1
    List.mem_cons_self

theorem neighCache_law_lookup_first :
    let c : NeighCache := Run.exec (neighStep flatDev) {}
      [.lookup gwAddr, .update gwAddr 1, .update (linkAddr 7) 2, .lookup (linkAddr 8),
        .update gwAddr 3]
    c.gwNeigh = some 0 ∧ cachedMac c gwAddr = some 3 ∧ NeighLaw flatDev c := by
  refine ⟨by decide +kernel, by decide +kernel, ?_⟩
  exact neighCache_law (by decide +kernel) false [] (Run.Reach.exec .refl (by decide +kernel))

end LibTpa
