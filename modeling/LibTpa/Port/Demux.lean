/- LibTpa/Port/Demux
   digest: A packet reaches the socket it is for, over every history of sockets. -/

import LibTpa.Port.Lookup
import LibTpa.Port.Release
import LibTpa.Lib.Run

set_option autoImplicit false

namespace LibTpa

open Lib.Run

def SockSlot.Live (t : SockSlot) : Prop := 0 ≤ t.sid

instance (t : SockSlot) : Decidable t.Live := inferInstanceAs (Decidable (0 ≤ t.sid))

inductive DemuxEv
  | connect (i : Nat) (a : ConnectArgs)
  | listen (i : Nat) (a : ListenArgs)
  /-- A SYN for a listener. -/
  | accept (i : Nat) (pkt : PktAddr) (entryOk : List Bool)
  /-- A connection takes a step that leaves its slot in use. -/
  | setState (i : Nat) (state : TcpState)
  | free (i : Nat)
  /-- The timer of a port block runs. -/
  | expire (b : Nat)
  /-- `enlarge_sock_count`. -/
  | enlarge

def demuxStep (dev : DevCfg) (range : PortRange) (x : Demux) : DemuxEv → Demux
  | .connect i a => (tpaConnectTo dev range x i a).getD x
  | .listen i a => tpaListenOn range x i a
  | .accept i pkt entryOk => tsockAcceptSlot x i pkt entryOk
  | .setState i state =>
    { x with socks := Function.update x.socks i { x.socks i with state := state } }
  | .free i => tsockFreeSlot x i
  | .expire b => { x with ports := portBlockTimeout x.ports b }
  | .enlarge => { x with nrMaxSock := x.nrMaxSock * 2 }

/-- A new socket goes into a free slot, and no assertion fails when its port is bound; a listener
accepts what it was found for, and only `tpa_listen_on` makes listeners. -/
def DemuxEv.Allowed (dev : DevCfg) (range : PortRange) (x : Demux) : DemuxEv → Prop
  | .connect i a => ¬ (x.socks i).Live ∧ (tpaConnectTo dev range x i a).isSome = true
  | .listen i _ => ¬ (x.socks i).Live
  | .accept i pkt _ => ¬ (x.socks i).Live ∧
      ∃ l, tsockLookup dev x pkt = .ok l ∧ (x.socks l).state = .listen
  | .setState i state => (x.socks i).Live ∧ (x.socks i).state ≠ .listen ∧ state ≠ .listen
  | .free i => (x.socks i).Live
  | .expire b => b ∈ x.ports.portBlocks
  | .enlarge => True

/-- The local port asked for lies in no block at an end of the port space, and there is
memory for the entry of an accepted connection. -/
def DemuxEv.Fits : DemuxEv → Prop
  | .connect _ a => PortOk a.localPort
  | .accept _ _ entryOk => entryOk.headD true = true
  | _ => True

def SockSlot.entry (t : SockSlot) (i : Nat) (via : Option Nat) : SockEntry := ⟨t.key, i, via⟩

/-- Every connection has its entry, every entry its connection, every listener its port. -/
structure DemuxInv (x : Demux) (listening : List U16) : Prop where
  ports : PortInv x.ports listening
  sid : ∀ i, (x.socks i).Live → (x.socks i).sid = i
  entered : ∀ i, (x.socks i).Live → (x.socks i).state ≠ .listen → (x.socks i).listenSock = false ∧
    (x.socks i).localPort ≠ 0 ∧ ∃ via, (x.socks i).entry i via ∈ x.ports.table ∧
      ((x.socks i).passiveConnection = true ↔ via = none)
  owner : ∀ e ∈ x.ports.table, (x.socks e.tsock).Live ∧ (x.socks e.tsock).state ≠ .listen ∧
    e.key = (x.socks e.tsock).key
  listener : ∀ i, (x.socks i).Live → (x.socks i).state = .listen → (x.socks i).listenSock = true ∧
    (x.socks i).localPort ≠ 0 ∧ (x.socks i).localPort ∈ listening
  alone : ∀ i j, (x.socks i).Live → (x.socks j).Live → (x.socks i).state = .listen →
    (x.socks j).state = .listen → (x.socks i).localPort = (x.socks j).localPort → i = j
  listenKeys : (x.listenTable.map SockEntry.key).Nodup
  listenOwner : ∀ e ∈ x.listenTable, (x.socks e.tsock).Live ∧ (x.socks e.tsock).state = .listen ∧
    e.key = listenKey (x.socks e.tsock).localPort

/-- The socket a packet is delivered to is in use, and has the packet's four-tuple, or listens
on its port while no socket in use has that four-tuple. -/
def DemuxLaw (dev : DevCfg) (x : Demux) : Prop :=
  ∀ pkt i, tsockLookup dev x pkt = .ok i → (x.socks i).Live ∧
    ((x.socks i).key = pkt.key ∨
      (x.socks i).state = .listen ∧ (x.socks i).localPort = pkt.dstPort ∧
        ∀ j, (x.socks j).Live → (x.socks j).key ≠ pkt.key)

/-! The lookup. -/

theorem sockTableLookup_some {table : List SockEntry} {key : SockKey} {i : Nat}
    (h : sockTableLookup table key = some i) : ∃ e ∈ table, e.key = key ∧ e.tsock = i := by
  obtain ⟨e, he, hi⟩ := Option.map_eq_some_iff.mp h
  have hk := List.find?_some he
  exact ⟨e, List.mem_of_find?_eq_some he, by simpa using hk, hi⟩

theorem tupleMatches_tuple {dev : DevCfg} {t : SockSlot} {pkt : PktAddr}
    (h : tupleMatches dev t pkt = true) (hs : t.state ≠ .listen) : t.key = pkt.key := by
  unfold tupleMatches at h
  rw [if_neg hs] at h
  simp only [Bool.and_eq_true, decide_eq_true_eq] at h
  obtain ⟨⟨⟨h1, h2⟩, h3⟩, h4⟩ := h
  simp [SockSlot.key, PktAddr.key, h1, h2, h3, h4]

theorem tupleMatches_listen {dev : DevCfg} {t : SockSlot} {pkt : PktAddr}
    (h : tupleMatches dev t pkt = true) (hs : t.state = .listen) : t.localPort = pkt.dstPort := by
  unfold tupleMatches at h
  rw [if_pos hs] at h
  by_contra hne
  rw [if_pos hne] at h
  cases h

namespace DemuxInv

variable {x : Demux} {listening : List U16} {dev : DevCfg} {pkt : PktAddr} {i : Nat}

theorem slowpath (h : DemuxInv x listening) (pkt : PktAddr) :
    (∃ i, tsockLookupSlowpath x pkt = .ok i ∧ (x.socks i).Live ∧ (x.socks i).key = pkt.key ∧
      (x.socks i).state ≠ .listen) ∨
    (tsockLookupSlowpath x pkt = .error (-errNoSock) ∧
      ∀ j, (x.socks j).Live → (x.socks j).state ≠ .listen → (x.socks j).key ≠ pkt.key) := by
  unfold tsockLookupSlowpath
  cases hl : sockTableLookup x.ports.table pkt.key with
  | none =>
    refine .inr ⟨rfl, fun j hj hs hk => ?_⟩
    obtain ⟨-, -, via, he, -⟩ := h.entered j hj hs
    exact (keyFree_iff ..).mpr hl _ he hk
  | some i =>
    obtain ⟨e, he, hk, rfl⟩ := sockTableLookup_some hl
    obtain ⟨h1, h2, h3⟩ := h.owner e he
    refine .inl ⟨e.tsock, ?_, h1, h3.symm.trans hk, h2⟩
    dsimp only
    rw [if_neg (Int.not_lt.mpr h1)]

theorem listener_law (h : DemuxInv x listening) (hi : (x.socks i).Live)
    (hs : (x.socks i).state = .listen) (hp : (x.socks i).localPort = pkt.dstPort)
    (hnone : ∀ j, (x.socks j).Live → (x.socks j).state ≠ .listen → (x.socks j).key ≠ pkt.key) :
    (x.socks i).key = pkt.key ∨ (x.socks i).state = .listen ∧ (x.socks i).localPort = pkt.dstPort ∧
      ∀ j, (x.socks j).Live → (x.socks j).key ≠ pkt.key := by
  by_cases hk : (x.socks i).key = pkt.key
  · exact .inl hk
  · refine .inr ⟨hs, hp, fun j hj hjk => ?_⟩
    by_cases hjs : (x.socks j).state = .listen
    · -- a second listener would have the same port
      have hport : (x.socks i).localPort = (x.socks j).localPort := by
        rw [hp]
        exact (congrArg SockKey.localPort hjk).symm
      rw [h.alone i j hi hj hs hjs hport] at hk
      exact hk hjk
    · exact hnone j hj hjs hjk

theorem found (h : DemuxInv x listening) (hr : tsockLookup dev x pkt = .ok i) : (x.socks i).Live ∧
    ((x.socks i).state ≠ .listen ∧ (x.socks i).key = pkt.key ∨
      (x.socks i).state = .listen ∧ (x.socks i).localPort = pkt.dstPort ∧
        ∀ j, (x.socks j).Live → (x.socks j).state ≠ .listen → (x.socks j).key ≠ pkt.key) := by
  unfold tsockLookup at hr
  dsimp only at hr
  generalize parseFlowMark dev pkt = sid at hr
  split at hr
  · next hsid =>
    split at hr
    · cases hr
    split at hr
    · cases hr
    next hmatch =>
    obtain ⟨hm, hself⟩ : tupleMatches dev (x.socks sid.toNat) pkt = true ∧
      (x.socks sid.toNat).sid = sid := by
      simpa using hmatch
    have hlive : (x.socks sid.toNat).Live := by
      unfold SockSlot.Live
      rw [hself]
      exact hsid
    split at hr
    · next hlisten =>
      rcases h.slowpath pkt with ⟨c, hc, h1, h2, h3⟩ | ⟨hc, hnone⟩
      · rw [hc] at hr
        cases hr
        exact ⟨h1, .inl ⟨h3, h2⟩⟩
      · rw [hc] at hr
        cases hr
        exact ⟨hlive, .inr ⟨hlisten, tupleMatches_listen hm hlisten, hnone⟩⟩
    · next hlisten =>
      cases hr
      exact ⟨hlive, .inl ⟨hlisten, tupleMatches_tuple hm hlisten⟩⟩
  · split at hr
    · rcases h.slowpath pkt with ⟨c, hc, h1, h2, h3⟩ | ⟨hc, hnone⟩
      · rw [hc] at hr
        cases hr
        exact ⟨h1, .inl ⟨h3, h2⟩⟩
      · rw [hc] at hr
        dsimp only at hr
        rw [if_pos rfl] at hr
        unfold listenTsockLookup at hr
        split at hr
        · cases hr
        next l hl =>
        split at hr
        · next hm =>
          cases hr
          obtain ⟨e, he, -, rfl⟩ := sockTableLookup_some hl
          obtain ⟨h1, h2, -⟩ := h.listenOwner e he
          exact ⟨h1, .inr ⟨h2, tupleMatches_listen hm h2, hnone⟩⟩
        · cases hr
    · cases hr

theorem law (h : DemuxInv x listening) (dev : DevCfg) : DemuxLaw dev x := by
  intro pkt i hr
  obtain ⟨hlive, ⟨-, hk⟩ | ⟨hs, hp, hnone⟩⟩ := h.found hr
  · exact ⟨hlive, .inl hk⟩
  · exact ⟨hlive, h.listener_law hlive hs hp hnone⟩

/-! What keeps the invariant. -/

theorem change (h : DemuxInv x listening) {t : SockSlot} {ports : PortSt}
    {listenTable : List SockEntry} {listening' : List U16} (hp : PortInv ports listening')
    (hsid : t.Live → t.sid = i)
    (hin : t.Live → t.state ≠ .listen → t.listenSock = false ∧ t.localPort ≠ 0 ∧
      ∃ via, t.entry i via ∈ ports.table ∧ (t.passiveConnection = true ↔ via = none))
    (hkeep : ∀ e ∈ x.ports.table, e.tsock ≠ i → e ∈ ports.table)
    (hown : ∀ e ∈ ports.table, (e ∈ x.ports.table ∧ e.tsock ≠ i) ∨
      (e.tsock = i ∧ t.Live ∧ t.state ≠ .listen ∧ e.key = t.key))
    (hlis : t.Live → t.state = .listen →
      t.listenSock = true ∧ t.localPort ≠ 0 ∧ t.localPort ∈ listening' ∧
      ∀ j, j ≠ i → (x.socks j).Live → (x.socks j).state = .listen →
    (x.socks j).localPort ≠ t.localPort)
    (hports : ∀ j, j ≠ i → (x.socks j).Live → (x.socks j).state = .listen →
      (x.socks j).localPort ∈ listening')
    (hlk : (listenTable.map SockEntry.key).Nodup)
    (hlown : ∀ e ∈ listenTable, (e ∈ x.listenTable ∧ e.tsock ≠ i) ∨
      (e.tsock = i ∧ t.Live ∧ t.state = .listen ∧ e.key = listenKey t.localPort)) :
    DemuxInv { x with ports := ports, listenTable := listenTable
                      socks := Function.update x.socks i t } listening' := by
  have hself : Function.update x.socks i t i = t := Function.update_self ..
  have hother : ∀ {j}, j ≠ i → Function.update x.socks i t j = x.socks j :=
    fun hj => Function.update_of_ne hj ..
  constructor
  · exact hp
  · intro j
    by_cases hj : j = i
    · subst hj
      dsimp only
      rw [hself]
      exact hsid
    · dsimp only
      rw [hother hj]
      exact h.sid j
  · intro j
    by_cases hj : j = i
    · subst hj
      dsimp only
      rw [hself]
      exact hin
    · dsimp only
      rw [hother hj]
      intro hlive hs
      obtain ⟨h1, h2, via, h3, h4⟩ := h.entered j hlive hs
      exact ⟨h1, h2, via, hkeep _ h3 hj, h4⟩
  · intro e he
    rcases hown e he with ⟨h1, h2⟩ | ⟨h1, h2⟩
    · dsimp only
      rw [hother h2]
      exact h.owner e h1
    · dsimp only
      rw [h1, hself]
      exact h2
  · intro j
    by_cases hj : j = i
    · subst hj
      dsimp only
      rw [hself]
      exact fun h1 h2 => ⟨(hlis h1 h2).1, (hlis h1 h2).2.1, (hlis h1 h2).2.2.1⟩
    · dsimp only
      rw [hother hj]
      exact fun h1 h2 => ⟨(h.listener j h1 h2).1, (h.listener j h1 h2).2.1, hports j hj h1 h2⟩
  · intro j k
    dsimp only
    by_cases hj : j = i <;> by_cases hk : k = i
    · exact fun _ _ _ _ _ => hj.trans hk.symm
    · subst hj
      rw [hself, hother hk]
      exact fun h1 h2 h3 h4 h5 => absurd h5.symm ((hlis h1 h3).2.2.2 k hk h2 h4)
    · subst hk
      rw [hself, hother hj]
      exact fun h1 h2 h3 h4 h5 => absurd h5 ((hlis h2 h4).2.2.2 j hj h1 h3)
    · rw [hother hj, hother hk]
      exact h.alone j k
  · exact hlk
  · intro e he
    rcases hlown e he with ⟨h1, h2⟩ | ⟨h1, h2⟩
    · dsimp only
      rw [hother h2]
      exact h.listenOwner e h1
    · dsimp only
      rw [h1, hself]
      exact h2

theorem listening_other (h : DemuxInv x listening) (j : Nat) (hj : (x.socks j).Live)
    (hs : (x.socks j).state = .listen) : (x.socks j).localPort ∈ listening :=
  (h.listener j hj hs).2.2

theorem listenTable_other (h : DemuxInv x listening)
    (hi : (x.socks i).Live → (x.socks i).state ≠ .listen) (e : SockEntry) (he : e ∈ x.listenTable) :
    e ∈ x.listenTable ∧ e.tsock ≠ i := by
  obtain ⟨h1, h2, -⟩ := h.listenOwner e he
  refine ⟨he, ?_⟩
  rintro rfl
  exact hi h1 h2

theorem unused (h : DemuxInv x listening) (hi : ¬ (x.socks i).Live) {t : SockSlot} (ht : ¬ t.Live) :
    DemuxInv { x with socks := Function.update x.socks i t } listening := by
  refine h.change h.ports (fun h1 => absurd h1 ht) (fun h1 => absurd h1 ht) (fun e he _ => he)
    (fun e he => .inl ⟨he, ?_⟩) (fun h1 => absurd h1 ht) (fun j _ =>
      h.listening_other j) h.listenKeys
    fun e he => .inl (h.listenTable_other (fun h1 => absurd h1 hi) e he)
  rintro rfl
  exact hi (h.owner e he).1

theorem reports (h : DemuxInv x listening) {ports : PortSt} {listening' : List U16}
    (hp : PortInv ports listening') (ht : ports.table = x.ports.table)
    (hsub : listening ⊆ listening') :
    DemuxInv { x with ports := ports } listening' :=
  ⟨hp, h.sid, by rw [ht]; exact h.entered, by rw [ht]; exact h.owner,
    fun j hj hs => ⟨(h.listener j hj hs).1, (h.listener j hj hs).2.1,
      hsub (h.listener j hj hs).2.2⟩,
    h.alone, h.listenKeys, h.listenOwner⟩

theorem arrive (h : DemuxInv x listening) (hi : ¬ (x.socks i).Live) {t : SockSlot} {ports : PortSt}
    {via : Option Nat} (hp : PortInv ports listening)
    (ht : ports.table = x.ports.table ++ [t.entry i via]) (hsid : t.sid = i)
    (hstate : t.state ≠ .listen) (hl : t.listenSock = false) (hport : t.localPort ≠ 0)
    (hvia : t.passiveConnection = true ↔ via = none) :
    DemuxInv { x with ports := ports, socks := Function.update x.socks i t } listening := by
  have hlive : t.Live := by
    unfold SockSlot.Live
    omega
  refine h.change hp (fun _ => hsid) (fun _ _ => ⟨hl, hport, via, by rw [ht]; simp, hvia⟩)
    (fun e he _ => by rw [ht]; exact List.mem_append_left _ he) (fun e he => ?_)
    (fun _ hs => absurd hs hstate) (fun j _ => h.listening_other j) h.listenKeys
    fun e he => .inl (h.listenTable_other (fun h1 => absurd h1 hi) e he)
  rw [ht] at he
  rcases List.mem_append.mp he with hold | hnew
  · exact .inl ⟨hold, fun heq => hi (heq ▸ (h.owner e hold).1)⟩
  · rw [List.mem_singleton.mp hnew]
    exact .inr ⟨rfl, hlive, hstate, rfl⟩

theorem entry_unique (h : DemuxInv x listening) {e e' : SockEntry} (he : e ∈ x.ports.table)
    (he' : e' ∈ x.ports.table) (heq : e.tsock = e'.tsock) : e = e' := by
  have hk : e.key = e'.key := by rw [(h.owner e he).2.2, (h.owner e' he').2.2, heq]
  exact List.inj_on_of_nodup_map h.ports.keys he he' hk

theorem leave (h : DemuxInv x listening) {e : SockEntry} (he : e ∈ x.ports.table)
    (hei : e.tsock = i) {t : SockSlot} (ht : ¬ t.Live) {ports : PortSt}
    (hp : PortInv ports listening) (htable : ports.table = x.ports.table.erase e) :
    DemuxInv { x with ports := ports, socks := Function.update x.socks i t } listening := by
  have hnodup : x.ports.table.Nodup := List.Nodup.of_map _ h.ports.keys
  refine h.change hp (fun h1 => absurd h1 ht) (fun h1 => absurd h1 ht) (fun e' he' hne => ?_)
    (fun e' he' => .inl ?_) (fun h1 => absurd h1 ht) (fun j _ => h.listening_other j) h.listenKeys
    fun e' he' => .inl (h.listenTable_other (fun _ => hei ▸ (h.owner e he).2.1) e' he')
  · rw [htable]
    refine (List.mem_erase_of_ne ?_).mpr he'
    rintro rfl
    exact hne hei
  · rw [htable, hnodup.mem_erase_iff] at he'
    exact ⟨he'.2, fun heq => he'.1 (h.entry_unique he'.2 he (heq.trans hei.symm))⟩

theorem not_live_freed (t : SockSlot) : ¬ SockSlot.Live { t with sid := tsockSidFreed } := by
  show ¬ (0 : Int) ≤ -2
  decide

theorem freeConn (h : DemuxInv x listening) (hi : (x.socks i).Live)
    (hs : (x.socks i).state ≠ .listen) :
    DemuxInv (tsockFreeSlot x i) listening := by
  obtain ⟨hl, hport, via, he, hvia⟩ := h.entered i hi hs
  unfold tsockFreeSlot releasePort
  rw [if_pos hport, hl]
  by_cases hpass : (x.socks i).passiveConnection = true
  · have hnone := hvia.mp hpass
    rw [if_pos hpass]
    unfold removePassiveSock
    rw [show (x.socks i).key = ((x.socks i).entry i via).key from rfl,
      sockTableDel_eq h.ports.keys he]
    exact h.leave he rfl (not_live_freed _) (h.ports.drop he hnone) rfl
  · obtain ⟨b, hb⟩ := Option.ne_none_iff_exists'.mp fun hnone => hpass (hvia.mpr hnone)
    rw [if_neg hpass]
    unfold tsockUnbind
    rw [show (x.socks i).key = ((x.socks i).entry i via).key from rfl, h.ports.unbind_eq he hb]
    exact h.leave he rfl (not_live_freed _) (h.ports.unbind he hb) rfl

theorem removeListenSock_spec (h : DemuxInv x listening) :
    ((removeListenSock x i).listenTable.map SockEntry.key).Nodup ∧
      ∀ e ∈ (removeListenSock x i).listenTable, e ∈ x.listenTable ∧ e.tsock ≠ i := by
  have hno : ∀ e ∈ x.listenTable, e.key ≠ listenKey (x.socks i).localPort → e.tsock ≠ i := by
    rintro e he hk rfl
    exact hk (h.listenOwner e he).2.2
  unfold removeListenSock
  by_cases hfree : KeyFree x.listenTable (listenKey (x.socks i).localPort)
  · rw [sockTableDel_keyFree hfree]
    exact ⟨h.listenKeys, fun e he => ⟨he, hno e he (hfree e he)⟩⟩
  · unfold KeyFree at hfree
    push Not at hfree
    obtain ⟨e₀, he₀, hk⟩ := hfree
    have hgone := keyFree_erase h.listenKeys he₀
    rw [hk] at hgone
    rw [← hk, sockTableDel_eq h.listenKeys he₀]
    refine ⟨PortInv.keys_erase e₀ h.listenKeys, fun e he => ?_⟩
    have hmem := List.mem_of_mem_erase he
    exact ⟨hmem, hno e hmem (hgone e he)⟩

theorem freeListener (h : DemuxInv x listening) (hi : (x.socks i).Live)
    (hs : (x.socks i).state = .listen) :
    DemuxInv (tsockFreeSlot x i) (listening.filter (· ≠ (x.socks i).localPort)) := by
  obtain ⟨hl, hport, hmem⟩ := h.listener i hi hs
  obtain ⟨hlk, hlown⟩ := h.removeListenSock_spec (i := i)
  have heq : tsockFreeSlot x i = { x with
      ports := (portFree x.ports (x.socks i).localPort).2
      listenTable := (removeListenSock x i).listenTable
      socks := Function.update x.socks i { x.socks i with sid := tsockSidFreed } } := by
    unfold tsockFreeSlot releasePort removeListenSock
    dsimp only
    rw [if_pos hport, if_pos hl]
    split <;> rfl
  rw [heq]
  refine h.change (h.ports.listenFree hmem) (fun h1 => absurd h1 (not_live_freed _))
    (fun h1 => absurd h1 (not_live_freed _)) (fun e he _ => he) (fun e he => .inl ⟨he, ?_⟩)
    (fun h1 => absurd h1 (not_live_freed _)) (fun j hj h1 h2 => ?_) hlk fun e he =>
      .inl (hlown e he)
  · rintro rfl
    exact (h.owner e he).2.1 hs
  · refine List.mem_filter.mpr ⟨h.listening_other j h1 h2, ?_⟩
    have hne : (x.socks j).localPort ≠ (x.socks i).localPort :=
      fun heq => hj (h.alone j i h1 hi h2 hs heq)
    simpa using hne

theorem freeSlot (h : DemuxInv x listening) (hi : (x.socks i).Live) :
    ∃ listening', DemuxInv (tsockFreeSlot x i) listening' := by
  by_cases hs : (x.socks i).state = .listen
  · exact ⟨_, h.freeListener hi hs⟩
  · exact ⟨_, h.freeConn hi hs⟩

theorem setState (h : DemuxInv x listening) (hi : (x.socks i).Live)
    (hs : (x.socks i).state ≠ .listen) {state : TcpState} (hs' : state ≠ .listen) :
    DemuxInv { x with socks := Function.update x.socks i { x.socks i with state := state } }
      listening := by
  obtain ⟨h1, h2, via, h3, h4⟩ := h.entered i hi hs
  refine h.change h.ports (fun _ => h.sid i hi) (fun _ _ => ⟨h1, h2, via, h3, h4⟩)
    (fun e he _ => he)
    (fun e he => ?_) (fun _ h5 => absurd h5 hs') (fun j _ => h.listening_other j) h.listenKeys
    fun e he => .inl (h.listenTable_other (fun _ => hs) e he)
  by_cases hei : e.tsock = i
  · obtain ⟨-, -, h7⟩ := h.owner e he
    rw [hei] at h7
    exact .inr ⟨hei, hi, hs', h7⟩
  · exact .inl ⟨he, hei⟩

theorem tsockFreeSlot_active (x : Demux) (i : Nat) (hport : (x.socks i).localPort ≠ 0)
    (hl : (x.socks i).listenSock = false) (hpass : (x.socks i).passiveConnection = false) :
    tsockFreeSlot x i = { tsockUnbind x i with
      socks := Function.update x.socks i { x.socks i with sid := tsockSidFreed } } := by
  unfold tsockFreeSlot releasePort
  rw [if_pos hport, if_neg (by rw [hl]; exact Bool.false_ne_true),
    if_neg (by rw [hpass]; exact Bool.false_ne_true)]
  rfl

/-- Unbinding before `tsock_free` makes no difference: the second time the key is gone. -/
theorem free_unbound (h : DemuxInv x listening) (hi : (x.socks i).Live)
    (hs : (x.socks i).state ≠ .listen) (hpass : (x.socks i).passiveConnection = false) :
    tsockFreeSlot (tsockUnbind x i) i = tsockFreeSlot x i := by
  obtain ⟨hl, hport, via, he, hvia⟩ := h.entered i hi hs
  obtain ⟨b, hb⟩ := Option.ne_none_iff_exists'.mp fun hnone => by
    rw [hvia.mpr hnone] at hpass
    cases hpass
  have hfree : KeyFree (tsockUnbind x i).ports.table (x.socks i).key := by
    have heq := h.ports.unbind_eq he hb
    unfold tsockUnbind
    rw [show (x.socks i).key = ((x.socks i).entry i via).key from rfl, heq]
    exact keyFree_erase h.ports.keys he
  have hagain : tsockUnbind (tsockUnbind x i) i = tsockUnbind x i := by
    have := portUnbind_keyFree hfree
    generalize hy : tsockUnbind x i = y at this ⊢
    have hsocks : y.socks = x.socks := by
      rw [← hy]
      rfl
    unfold tsockUnbind
    rw [hsocks, this, ← hsocks]
  rw [tsockFreeSlot_active (tsockUnbind x i) i hport hl hpass,
    tsockFreeSlot_active x i hport hl hpass, hagain]
  rfl

theorem connectFinish (h : DemuxInv x listening) (hi : (x.socks i).Live)
    (hs : (x.socks i).state ≠ .listen) (hpass : (x.socks i).passiveConnection = false)
    (a : ConnectArgs) :
    DemuxInv (connectFinish x i a) listening := by
  unfold LibTpa.connectFinish
  split
  · exact h.freeConn hi hs
  split
  · rw [h.free_unbound hi hs hpass]
    exact h.freeConn hi hs
  · exact h.setState hi hs (show TcpState.synSent ≠ .listen by simp)

theorem connect (h : DemuxInv x listening) (hi : ¬ (x.socks i).Live) (dev : DevCfg)
    (range : PortRange) {a : ConnectArgs} (ha : PortOk a.localPort) {y : Demux}
    (hy : tpaConnectTo dev range x i a = some y) : DemuxInv y listening := by
  have hp := h.ports.asked a.oracles
  unfold tpaConnectTo at hy
  dsimp only at hy
  generalize (if a.isIpv6 = true then dev.ip6 else tpaIpSetIpv4 dev.ip4) = localIp at hy
  rw [show (sockCreate x i).ports = x.ports from rfl] at hy
  obtain ⟨r, hr, rfl⟩ := Option.map_eq_some_iff.mp hy
  have hcase := portBind_cases range { x.ports with oracles := a.oracles }
    ⟨localIp, a.remoteIp, a.localPort, a.remotePort⟩ i ha hp.blocksOk
    fun b hb => (hp.find_iff _ b).mp hb
  rw [hr] at hcase
  obtain ⟨hp', hout⟩ := hp.bindCase hcase
  rcases hout with ⟨h0, htable⟩ | ⟨h0, -, b, htable⟩
  · rw [if_pos h0]
    have hfinal := (h.reports hp' htable (List.Subset.refl _)).unused (i := i) hi
      (not_live_freed { sid := (i : Int) })
    unfold tsockFreeSlot releasePort sockCreate
    simpa using hfinal
  · rw [if_neg h0]
    obtain ⟨t, ht⟩ : ∃ t : SockSlot, t =
        { sid := (i : Int), remoteIp := a.remoteIp, localIp := localIp, remotePort := a.remotePort
          localPort := r.1 } := ⟨_, rfl⟩
    have hy := h.arrive (i := i) (t := t) hi hp' (by rw [ht]; exact htable) (by rw [ht])
      (by simp [ht]) (by rw [ht]) (by rw [ht]; exact h0) (by simp [ht])
    have hself : Function.update x.socks i t i = t := Function.update_self ..
    have hlive : t.Live := by
      rw [ht]
      exact Int.natCast_nonneg i
    have h1 : (Function.update x.socks i t i).Live := by
      rw [hself]
      exact hlive
    have h2 : (Function.update x.socks i t i).state ≠ .listen := by
      rw [hself, ht]
      simp
    have h3 : (Function.update x.socks i t i).passiveConnection = false := by rw [hself, ht]
    unfold sockCreate
    dsimp only
    rw [Function.update_self, Function.update_idem, ← ht]
    exact hy.connectFinish h1 h2 h3 a

theorem openListener (h : DemuxInv x listening) (hi : ¬ (x.socks i).Live) {t : SockSlot}
    {ports : PortSt} {listenTable : List SockEntry} (hsid : t.sid = i) (hstate : t.state = .listen)
    (hl : t.listenSock = true) (hport : t.localPort ≠ 0)
    (hp : PortInv ports (t.localPort :: listening)) (ht : ports.table = x.ports.table)
    (hnew : t.localPort ∉ listening) (hlk : (listenTable.map SockEntry.key).Nodup)
    (hlt : ∀ e ∈ listenTable, e ∈ x.listenTable ∨ e = ⟨listenKey t.localPort, i, none⟩) :
    DemuxInv { x with ports := ports, listenTable := listenTable
                      socks := Function.update x.socks i t } (t.localPort :: listening) := by
  have hlive : t.Live := by
    unfold SockSlot.Live
    omega
  refine h.change hp (fun _ => hsid) (fun _ hs => absurd hstate hs) (fun e he _ =>
    by rw [ht]; exact he)
    (fun e he => .inl ?_) (fun _ _ => ⟨hl, hport, List.mem_cons_self, fun j _ h1 h2 heq => ?_⟩)
    (fun j _ h1 h2 => List.mem_cons_of_mem _ (h.listening_other j h1 h2)) hlk fun e he => ?_
  · rw [ht] at he
    exact ⟨he, fun heq => hi (heq ▸ (h.owner e he).1)⟩
  · exact hnew (heq ▸ h.listening_other j h1 h2)
  · rcases hlt e he with hold | rfl
    · exact .inl (h.listenTable_other (fun h1 => absurd h1 hi) e hold)
    · exact .inr ⟨rfl, hlive, hstate, rfl⟩

theorem listen (h : DemuxInv x listening) (hi : ¬ (x.socks i).Live) (range : PortRange)
    (a : ListenArgs) :
    ∃ listening', DemuxInv (tpaListenOn range x i a) listening' := by
  unfold tpaListenOn
  by_cases h0 : a.port = 0
  · rw [if_pos h0]
    exact ⟨_, h⟩
  rw [if_neg h0]
  have hp := (h.ports.asked a.oracles).listenAlloc range a.port
  have hgiven := portAlloc_given range { x.ports with oracles := a.oracles } h0
  have hgot := portAlloc_got range { x.ports with oracles := a.oracles } a.port
  generalize portAlloc range { x.ports with oracles := a.oracles } a.port = r at *
  rcases hgot with ⟨h1, ht⟩ | ⟨h1, ht⟩
  · rw [if_pos h1] at hp ⊢
    exact ⟨_, h.reports hp ht.same.table (List.Subset.refl _)⟩
  rw [if_neg h1] at hp ⊢
  have hr := hgiven h1
  rw [hr] at hp ht
  have hnew : a.port ∉ listening := fun hmem => by
    have := (h.ports.listen _ hmem).1
    rw [ht.free a.port List.mem_cons_self] at this
    cases this
  split
  · refine ⟨_, h.reports (hp.listenFree List.mem_cons_self) ht.same.table fun p hp' => ?_⟩
    exact List.mem_filter.mpr ⟨List.mem_cons_of_mem _ hp', by
      have : p ≠ a.port := fun heq => hnew (heq ▸ hp')
      simpa using this⟩
  · obtain ⟨t, htd⟩ : ∃ t : SockSlot, t =
        { sid := (i : Int), localPort := a.port, localIp := a.localIp
          state := .listen, listenSock := true } := ⟨_, rfl⟩
    have hself : Function.update x.socks i t i = t := Function.update_self ..
    have htp : t.localPort = a.port := by rw [htd]
    have hopen : ∀ {listenTable : List SockEntry}, (listenTable.map SockEntry.key).Nodup →
        (∀ e ∈ listenTable, e ∈ x.listenTable ∨ e = ⟨listenKey t.localPort, i, none⟩) →
        DemuxInv { x with ports := r.2, listenTable := listenTable
                          socks := Function.update x.socks i t } (a.port :: listening) := by
      intro listenTable hlk hlt
      rw [← htp] at h0 hp hnew ⊢
      exact h.openListener hi (by rw [htd]) (by rw [htd]) (by rw [htd]) h0 hp
        ht.same.table hnew hlk hlt
    unfold sockCreate
    dsimp only
    rw [Function.update_self, Function.update_idem, ← htd]
    have hadd : DemuxInv
        (addListenSock { x with ports := r.2, socks := Function.update x.socks i t } i a.entryOk)
        (a.port :: listening) := by
      unfold addListenSock
      dsimp only
      rw [hself]
      split
      · exact hopen h.listenKeys fun e he => .inl he
      · next hno =>
        have hfree : KeyFree x.listenTable (listenKey t.localPort) := by
          have hno : sockTableLookup x.listenTable (listenKey t.localPort) = none ∧
            a.entryOk = true := by
            simpa using hno
          exact (keyFree_iff ..).mpr hno.1
        refine hopen (PortInv.keys_append h.listenKeys hfree) fun e he => ?_
        rcases List.mem_append.mp he with he | he
        · exact .inl he
        · exact .inr (List.mem_singleton.mp he)
    split
    · refine hadd.freeSlot ?_
      unfold addListenSock
      dsimp only
      split
      · dsimp only
        rw [hself, htd]
        exact Int.natCast_nonneg i
      · dsimp only
        rw [hself, htd]
        exact Int.natCast_nonneg i
    · exact ⟨_, hadd⟩

theorem accept (h : DemuxInv x listening) (hi : ¬ (x.socks i).Live) {l : Nat}
    (hl : tsockLookup dev x pkt = .ok l) (hs : (x.socks l).state = .listen) {entryOk : List Bool}
    (hok : entryOk.headD true = true) : DemuxInv (tsockAcceptSlot x i pkt entryOk) listening := by
  obtain ⟨hlive, ⟨hns, -⟩ | ⟨-, hport, hnone⟩⟩ := h.found hl
  · exact absurd hs hns
  have h0 : pkt.dstPort ≠ 0 := by
    rw [← hport]
    exact (h.listener l hlive hs).2.1
  have hfree : KeyFree x.ports.table pkt.key := by
    intro e he hk
    obtain ⟨h1, h2, h3⟩ := h.owner e he
    exact hnone _ h1 h2 (h3.symm.trans hk)
  obtain ⟨s, hsd⟩ :
    ∃ s, s = { x.ports with oracles := { x.ports.oracles with entryOk := entryOk } } := ⟨_, rfl⟩
  have hadd := sockTableAdd_cases s pkt.key i none
  have htab : s.table = x.ports.table := by rw [hsd]
  rcases hadd with ⟨-, -, hno⟩ | ⟨-, -, oracles, hst⟩
  · have := hno (by rw [htab]; exact hfree)
    rw [hsd] at this
    dsimp only at this
    rw [this] at hok
    cases hok
  · unfold tsockAcceptSlot sockCreate
    dsimp only
    rw [Function.update_self, Function.update_idem, ← hsd]
    dsimp only [SockSlot.key]
    rw [show (⟨pkt.dstIp, pkt.srcIp, pkt.dstPort, pkt.srcPort⟩ : SockKey) = pkt.key from rfl, hst]
    have hp : PortInv
        { s with table := s.table ++ [⟨pkt.key, i, none⟩], oracles := oracles } listening := by
      rw [hsd]
      exact h.ports.enter (e := ⟨pkt.key, i, none⟩) hfree rfl
    refine h.arrive hi hp ?_ rfl (by simp) rfl h0 ⟨fun _ => rfl, fun _ => rfl⟩
    rw [hsd]
    rfl

theorem step (h : DemuxInv x listening) (dev : DevCfg) (range : PortRange) {e : DemuxEv}
    (hall : e.Allowed dev range x) (hfits : e.Fits) :
    ∃ listening', DemuxInv (demuxStep dev range x e) listening' := by
  cases e with
  | connect i a =>
    obtain ⟨hi, hsome⟩ := hall
    obtain ⟨y, hy⟩ := Option.isSome_iff_exists.mp hsome
    rw [demuxStep, hy]
    exact ⟨_, h.connect hi dev range hfits hy⟩
  | listen i a => exact h.listen hall range a
  | accept i pkt entryOk =>
    obtain ⟨hi, l, hl, hs⟩ := hall
    exact ⟨_, h.accept hi hl hs hfits⟩
  | setState i state => exact ⟨_, h.setState hall.1 hall.2.1 hall.2.2⟩
  | free i => exact h.freeSlot hall
  | expire b =>
    refine ⟨_, h.reports (h.ports.timeout hall) ?_ (List.Subset.refl _)⟩
    unfold portBlockTimeout
    dsimp only
    split
    · rfl
    · rw [(PortInv.free_rest _ b).2.2.1]
      rfl
  | enlarge =>
    exact ⟨_, h.ports, h.sid, h.entered, h.owner, h.listener, h.alone, h.listenKeys, h.listenOwner⟩

end DemuxInv

structure DemuxFresh (x : Demux) : Prop where
  socks : ∀ i, ¬ (x.socks i).Live
  blocks : x.ports.portBlocks = []
  table : x.ports.table = []
  listeners : x.listenTable = []

/-- Over every history that fits, packets reach the sockets they are for. -/
theorem demux_run (dev : DevCfg) (range : PortRange) {x₀ x : Demux} (h₀ : DemuxFresh x₀)
    (hx : Reach (demuxStep dev range) (fun x e => e.Allowed dev range x ∧ e.Fits) x₀ x) :
    DemuxLaw dev x := by
  have hstart : DemuxInv x₀ [] := by
    refine ⟨⟨?_, ?_, ?_, ?_, ?_, ?_⟩, fun i hi => absurd hi (h₀.socks i),
      fun i hi => absurd hi (h₀.socks i),
      ?_, fun i hi => absurd hi (h₀.socks i), fun i _ hi => absurd hi (h₀.socks i), ?_, ?_⟩
    all_goals simp [h₀.blocks, h₀.table, h₀.listeners]
  obtain ⟨listening, hinv⟩ : ∃ listening, DemuxInv x listening := by
    refine hx.invariant (I := fun x => ∃ listening, DemuxInv x listening) ⟨[], hstart⟩ ?_
    rintro x e ⟨listening, h⟩ ⟨hall, hfits⟩
    exact h.step dev range hall hfits
  exact hinv.law dev

def Demux.boot : Demux where
  ports :=
    { portMap := fun _ => false
      heap := fun _ => ⟨0, 0, 0, 0, false, []⟩
      fresh := 0
      portBlocks := []
      table := []
      oracles := {} }
  listenTable := []
  socks := fun _ => {}
  nrMaxSock := 16

theorem Demux.boot_fresh : DemuxFresh .boot := by
  refine ⟨fun i => ?_, rfl, rfl, rfl⟩
  show ¬ (0 : Int) ≤ -1
  decide

def toHost (ip : TpaIp) (localPort : U16) : ConnectArgs :=
  { remoteIp := ip, remotePort := 80, localPort := localPort, isIpv6 := true }

def fromHost (ip : TpaIp) (localPort : U16) : PktAddr :=
  { srcIp := ip, dstIp := 0, srcPort := 80, dstPort := localPort, isIpv6 := true, mark := none }

theorem demux_run_answer :
    tsockLookup {} (exec (demuxStep {} {}) .boot [.connect 3 (toHost 7 50000)]) (fromHost 7 50000) =
      .ok 3 ∧
      DemuxLaw {} (exec (demuxStep {} {}) .boot [.connect 3 (toHost 7 50000)]) := by
  refine ⟨by decide +kernel, demux_run {} {} Demux.boot_fresh
    (Reach.refl.exec ⟨⟨⟨Demux.boot_fresh.socks 3, ?_⟩, ?_⟩, trivial⟩)⟩
  · decide +kernel
  · show PortOk _
    decide

def acceptUnentered : List DemuxEv :=
  [.listen 0 { localIp := 0, port := 80 }, .accept 1 (fromHost 7 80) [false]]

/-- The next packet of the accepted connection goes to the listener. -/
theorem unenteredSocket_not_found :
    DemuxFresh .boot ∧
      Admitted (demuxStep {} {}) (fun x e => e.Allowed {} {} x) .boot acceptUnentered ∧
      ¬ DemuxLaw {} (exec (demuxStep {} {}) .boot acceptUnentered) := by
  refine ⟨Demux.boot_fresh, ⟨Demux.boot_fresh.socks 0, ⟨?_, 0, ?_, ?_⟩, trivial⟩, fun h => ?_⟩
  · show ¬ SockSlot.Live _
    decide +kernel
  · decide +kernel
  · decide +kernel
  · obtain ⟨-, hk | ⟨-, -, hnone⟩⟩ := h (fromHost 7 80) 0 (by decide +kernel)
    · exact absurd (congrArg SockKey.remotePort hk) (by decide +kernel)
    · exact hnone 1 (by decide +kernel) (by decide +kernel)

end LibTpa
