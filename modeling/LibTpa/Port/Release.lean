/- LibTpa/Port/Release
   digest: Unbinding, freeing blocks and the ports of listeners. -/

import LibTpa.Port.Invariant

set_option autoImplicit false

namespace LibTpa

theorem set_last_dropLast_perm {α : Type*} (l : List α) (d : α) {i : Nat} (hi : i < l.length) :
    (l.set i (l.getLastD d)).dropLast.Perm (l.eraseIdx i) := by
  rcases List.eq_nil_or_concat l with rfl | ⟨l', x, rfl⟩
  · simp at hi
  rw [List.concat_eq_append] at hi ⊢
  rw [List.length_append, List.length_singleton] at hi
  have hlast : (l' ++ [x]).getLastD d = x := by simp
  rw [hlast]
  by_cases h : i < l'.length
  · rw [List.set_append_left _ _ h, List.dropLast_concat, List.eraseIdx_append_of_lt_length h]
    exact (List.set_perm_cons_eraseIdx h x).trans (List.perm_append_singleton x _).symm
  · have hi' : i = l'.length := by omega
    subst hi'
    rw [List.set_append_right _ _ le_rfl, List.eraseIdx_append_of_length_le le_rfl]
    simp

theorem workerDropPortBlock_perm (s : PortSt) {b : Nat} (hb : b ∈ s.portBlocks) :
    (workerDropPortBlock s b).portBlocks.Perm (s.portBlocks.erase b) := by
  unfold workerDropPortBlock
  dsimp only
  rw [List.erase_eq_eraseIdx]
  cases hi : s.portBlocks.idxOf? b with
  | none => exact absurd hb (List.idxOf?_eq_none_iff.mp hi)
  | some i =>
    obtain ⟨hlt, -, -⟩ := List.idxOf?_eq_some_iff.mp hi
    exact set_last_dropLast_perm _ _ hlt

theorem eraseP_key {table : List SockEntry} {e : SockEntry} (h : (table.map SockEntry.key).Nodup)
    (he : e ∈ table) : table.eraseP (fun x => x.key = e.key) = table.erase e := by
  induction table with
  | nil => cases he
  | cons x table ih =>
    rw [List.map_cons, List.nodup_cons] at h
    by_cases hx : x = e
    · subst hx
      simp
    · have he' : e ∈ table := (List.mem_cons.mp he).resolve_left (Ne.symm hx)
      have hkey : x.key ≠ e.key := fun heq => h.1 (heq ▸ List.mem_map_of_mem he')
      rw [List.eraseP_cons_of_neg (by simpa using hkey), List.erase_cons_tail (by simpa using hx),
        ih h.2 he']

theorem sockTableDel_eq {table : List SockEntry} {e : SockEntry}
    (h : (table.map SockEntry.key).Nodup) (he : e ∈ table) :
    sockTableDel table e.key = some (table.erase e) := by
  unfold sockTableDel
  rw [if_pos, eraseP_key h he]
  exact List.find?_isSome.mpr ⟨e, he, by simp⟩

theorem sockTableDel_keyFree {table : List SockEntry} {key : SockKey} (h : KeyFree table key) :
    sockTableDel table key = none := by
  unfold sockTableDel
  rw [if_neg]
  rw [List.find?_isSome]
  rintro ⟨e, he, hk⟩
  exact h e he (by simpa using hk)

theorem portUnbind_keyFree {s : PortSt} {key : SockKey} (h : KeyFree s.table key) :
    portUnbind s key = (-1, s) := by
  unfold portUnbind
  rw [sockTableDel_keyFree h]
  split <;> rfl

theorem keyFree_erase {table : List SockEntry} {e : SockEntry} (h : (table.map SockEntry.key).Nodup)
    (he : e ∈ table) : KeyFree (table.erase e) e.key := by
  intro e' he' heq
  have hnodup : table.Nodup := List.Nodup.of_map _ h
  obtain ⟨hne, hmem⟩ := hnodup.mem_erase_iff.mp he'
  exact hne (List.inj_on_of_nodup_map h hmem he heq)

theorem boundThrough_erase {table : List SockEntry} {e : SockEntry} (he : e ∈ table) (b : Nat) :
    boundThrough table b = boundThrough (table.erase e) b + if e.via = some b then 1 else 0 := by
  unfold boundThrough
  rw [(List.perm_cons_erase he).countP_eq, List.countP_cons]
  simp

namespace PortInv

variable {s s' : PortSt} {listening : List U16} {b : Nat}

theorem keys_erase {table : List SockEntry} (e : SockEntry) (h : (table.map SockEntry.key).Nodup) :
    ((table.erase e).map SockEntry.key).Nodup :=
  h.sublist ((List.erase_sublist).map _)

theorem bindCase (h : PortInv s listening) {key : SockKey} {tsock : Nat} {r : U16 × PortSt}
    (hc : BindCase s key tsock (some r)) : PortInv r.2 listening ∧
      ((r.1 = 0 ∧ r.2.table = s.table) ∨ (r.1 ≠ 0 ∧ KeyFree s.table { key with localPort := r.1 } ∧
        ∃ b, r.2.table = s.table ++ [⟨{ key with localPort := r.1 }, tsock, some b⟩])) := by
  cases hc with
  | refused zero hu => exact ⟨h.unchanged hu, .inl ⟨zero, hu.table⟩⟩
  | bound mem pos port ha => exact ⟨h.added mem port ha, .inr ⟨pos, ha.free, _, ha.table⟩⟩
  | made hn pos port ha =>
    next b start t =>
    have htable := hn.withBlock_table
    refine ⟨(h.newBlock hn).added (hn.mem_blocks.mpr (.inr rfl))
      (by rw [hn.heap_self]; exact port) ha,
      .inr ⟨pos, htable ▸ ha.free, b, htable ▸ ha.table⟩⟩
  | wasted hn zero hu why =>
    exact ⟨(h.newBlock hn).unchanged hu, .inl ⟨zero, hu.table.trans hn.table⟩⟩

theorem unbind_eq (h : PortInv s listening) {e : SockEntry} (he : e ∈ s.table)
    (hvia : e.via = some b) :
    portUnbind s e.key = (0, portBlockPut { s with table := s.table.erase e } b) := by
  obtain ⟨hb, hp⟩ := h.bound e he b hvia
  unfold portUnbind
  rw [(h.find_iff _ b).mpr ⟨hb, hp⟩]
  dsimp only
  rw [sockTableDel_eq h.keys he]

theorem unbind (h : PortInv s listening) {e : SockEntry} (he : e ∈ s.table)
    (hvia : e.via = some b) :
    PortInv (portBlockPut { s with table := s.table.erase e } b) listening := by
  obtain ⟨hb, -⟩ := h.bound e he b hvia
  have hcount := boundThrough_erase he b
  rw [if_pos hvia] at hcount
  have href := (h.block b hb).refcnt
  have hother : ∀ c, c ≠ b → boundThrough (s.table.erase e) c = boundThrough s.table c := by
    intro c hc
    rw [boundThrough_erase he c,
      if_neg (by rw [hvia]; exact fun heq => hc (Option.some.inj heq).symm),
      Nat.add_zero]
  have hbound : ∀ x ∈ s.table.erase e, ∀ c, x.via = some c → c ∈ s.portBlocks ∧
      x.key.localPort ∈ blockPorts (s.heap c).start :=
        fun x hx => h.bound x (List.mem_of_mem_erase hx)
  have hself : (s.heap b).refcnt - 1 = boundThrough (s.table.erase e) b := by omega
  by_cases h0 : (s.heap b).refcnt - 1 = 0
  · refine h.retable _ true (keys_erase e h.keys) hbound (fun _ => hself) hother rfl rfl rfl rfl ?_
    unfold portBlockPut
    dsimp only
    rw [if_pos h0]
    rfl
  · refine h.retable _ (s.heap b).armed (keys_erase e h.keys) hbound (fun _ => hself) hother
      rfl rfl rfl rfl ?_
    unfold portBlockPut
    dsimp only
    rw [if_neg h0]
    rfl

theorem free_map (h : PortInv s listening) (hb : b ∈ s.portBlocks) (p : U16) :
    (portBlockFree s b).portMap p = (s.portMap p && !decide (p ∈ (s.heap b).ports)) := by
  have hi := h.block b hb
  have hstop : (s.heap b).stop.toNat - (s.heap b).start.toNat = 64 := by
    rw [hi.stop, show (64 : U16) = BitVec.ofNat 16 64 from rfl, hi.ok.toNat_add le_rfl]
    omega
  have hfold := (foldl_portFree (blockPorts (s.heap b).start) s).2 p
  unfold portBlockFree workerDropPortBlock
  dsimp only
  rw [hstop, hi.ports, ← hfold]
  unfold blockPorts
  rw [List.foldl_map]

theorem free_rest (s : PortSt) (b : Nat) :
    (portBlockFree s b).heap = s.heap ∧ (portBlockFree s b).fresh = s.fresh ∧
      (portBlockFree s b).table = s.table ∧
      (portBlockFree s b).portBlocks = (workerDropPortBlock s b).portBlocks := by
  have hfold := (foldl_portFree ((List.range ((s.heap b).stop.toNat - (s.heap b).start.toNat)).map
    fun i => (s.heap b).start + BitVec.ofNat 16 i) s).1
  rw [List.foldl_map] at hfold
  unfold portBlockFree
  dsimp only
  refine ⟨hfold.heap, hfold.fresh, hfold.table, ?_⟩
  unfold workerDropPortBlock
  dsimp only
  rw [hfold.blocks]

theorem free (h : PortInv s listening) (hb : b ∈ s.portBlocks) (h0 : (s.heap b).refcnt = 0) :
    PortInv (portBlockFree s b) listening := by
  obtain ⟨h1, h2, h3, h4⟩ := free_rest s b
  have hperm := workerDropPortBlock_perm s hb
  rw [← h4] at hperm
  have hmem : ∀ c, c ∈ (portBlockFree s b).portBlocks ↔ c ≠ b ∧ c ∈ s.portBlocks := by
    intro c
    rw [hperm.mem_iff]
    exact h.nodup.mem_erase_iff
  have hi := h.block b hb
  have hmap : ∀ p, p ∉ blockPorts (s.heap b).start →
    (portBlockFree s b).portMap p = s.portMap p := by
    intro p hp
    rw [h.free_map hb, hi.ports]
    simp [hp]
  constructor
  · exact hperm.nodup_iff.mpr (h.nodup.erase b)
  · intro c hc
    obtain ⟨hcb, hc⟩ := (hmem c).mp hc
    have hic := h.block c hc
    constructor
    · rw [h2]; exact hic.old
    · rw [h1]; exact hic.ok
    · rw [h1]; exact hic.stop
    · rw [h1]; exact hic.size
    · rw [h1]; exact hic.ports
    · intro p hp
      rw [h1] at hp
      rw [hmap p fun hp' => hcb (h.disjoint hc hb hp hp')]
      exact hic.held p hp
    · rw [h1, h3]; exact hic.refcnt
  · intro c hc d hd
    rw [h1]
    exact h.starts c ((hmem c).mp hc).2 d ((hmem d).mp hd).2
  · intro p hp
    obtain ⟨h5, h6⟩ := h.listen p hp
    refine ⟨(hmap p (h6 b hb)).trans h5, fun c hc => ?_⟩
    rw [h1]
    exact h6 c ((hmem c).mp hc).2
  · rw [h3]
    exact h.keys
  · intro e he c hc
    rw [h3] at he
    obtain ⟨h5, h6⟩ := h.bound e he c hc
    rw [h1, hmem]
    refine ⟨⟨?_, h5⟩, h6⟩
    -- an entry bound through the block would have been counted
    rintro rfl
    have hpos : 0 < boundThrough s.table c := List.countP_pos_iff.mpr ⟨e, he, by simpa using hc⟩
    have := hi.refcnt
    omega

theorem rearm (h : PortInv s listening) (armed : Bool) :
    PortInv (s.setBlock b { s.heap b with armed := armed }) listening :=
  h.retable (b := b) (s.heap b).refcnt armed h.keys h.bound (fun hb => (h.block b hb).refcnt)
    (fun _ _ => rfl)
    rfl rfl rfl rfl rfl

theorem timeout (h : PortInv s listening) (hb : b ∈ s.portBlocks) :
    PortInv (portBlockTimeout s b) listening := by
  unfold portBlockTimeout
  dsimp only
  have h' := h.rearm (b := b) false
  have hb' : b ∈ (s.setBlock b { s.heap b with armed := false }).portBlocks := hb
  generalize s.setBlock b { s.heap b with armed := false } = t at h' hb' ⊢
  split
  · exact h'
  · next hle =>
    have hnn := (h'.block b hb').refcnt
    exact h'.free hb' (by omega)

theorem drop (h : PortInv s listening) {e : SockEntry} (he : e ∈ s.table) (hvia : e.via = none) :
    PortInv { s with table := s.table.erase e } listening := by
  have hcount : ∀ c, boundThrough (s.table.erase e) c = boundThrough s.table c := fun c => by
    rw [boundThrough_erase he c, if_neg (by rw [hvia]; exact nofun), Nat.add_zero]
  refine h.retable (b := 0) (s.heap 0).refcnt (s.heap 0).armed (keys_erase e h.keys)
    (fun x hx => h.bound x (List.mem_of_mem_erase hx)) (fun hb => ?_) (fun c _ => hcount c)
    rfl rfl rfl rfl ?_
  · rw [hcount]
    exact (h.block 0 hb).refcnt
  · exact (Function.update_eq_self 0 s.heap).symm

theorem enter (h : PortInv s listening) {e : SockEntry} (hfree : KeyFree s.table e.key)
    (hvia : e.via = none) {oracles : PortOracles} :
    PortInv { s with table := s.table ++ [e], oracles := oracles } listening := by
  have hcount : ∀ c, boundThrough (s.table ++ [e]) c = boundThrough s.table c := fun c => by
    rw [boundThrough_append, if_neg (by rw [hvia]; exact nofun), Nat.add_zero]
  refine h.retable (b := 0) (s.heap 0).refcnt (s.heap 0).armed
    (keys_append h.keys hfree) (fun x hx c hc => ?_) (fun hb => ?_) (fun c _ => hcount c)
    rfl rfl rfl rfl ?_
  · rcases List.mem_append.mp hx with hx | hx
    · exact h.bound x hx c hc
    · rw [List.mem_singleton.mp hx, hvia] at hc
      cases hc
  · rw [hcount]
    exact (h.block 0 hb).refcnt
  · exact (Function.update_eq_self 0 s.heap).symm

theorem listenAlloc (h : PortInv s listening) (range : PortRange) (port : U16) :
    PortInv (portAlloc range s port).2
      (if (portAlloc range s port).1 = 0 then listening
        else (portAlloc range s port).1 :: listening) := by
  have key : ∀ {ports s'}, PortsTaken s ports s' → PortInv s' (ports ++ listening) := by
    intro ports s' ht
    obtain ⟨hh, hf, hbl, htb, -⟩ := ht.same
    have hmono : ∀ p, s.portMap p = true → s'.portMap p = true := fun p hp => by
      rw [ht.map p, hp]
      rfl
    constructor
    · rw [hbl]; exact h.nodup
    · intro b hb
      rw [hbl] at hb
      have hi := h.block b hb
      constructor
      · rw [hf]; exact hi.old
      · rw [hh]; exact hi.ok
      · rw [hh]; exact hi.stop
      · rw [hh]; exact hi.size
      · rw [hh]; exact hi.ports
      · rw [hh]; exact fun p hp => hmono p (hi.held p hp)
      · rw [hh, htb]; exact hi.refcnt
    · rw [hbl, hh]; exact h.starts
    · rw [hbl, hh]
      intro p hp
      rcases List.mem_append.mp hp with hp | hp
      · refine ⟨by rw [ht.map p]; simp [hp], fun b hb hin => ?_⟩
        have := (h.block b hb).held p hin
        rw [ht.free p hp] at this
        cases this
      · exact ⟨hmono p (h.listen p hp).1, (h.listen p hp).2⟩
    · rw [htb]; exact h.keys
    · rw [htb, hbl, hh]; exact h.bound
  rcases portAlloc_got range s port with ⟨h1, h2⟩ | ⟨h1, h2⟩
  · rw [if_pos h1]
    exact key h2
  · rw [if_neg h1]
    exact key h2

theorem listenFree (h : PortInv s listening) {port : U16} (hport : port ∈ listening) :
    PortInv (portFree s port).2 (listening.filter (· ≠ port)) := by
  have hout := (h.listen port hport).2
  have hmap : ∀ p, p ≠ port → (portFree s port).2.portMap p = s.portMap p := fun p hp =>
    Function.update_of_ne hp ..
  constructor
  · exact h.nodup
  · intro b hb
    have hi := h.block b hb
    exact ⟨hi.old, hi.ok, hi.stop, hi.size, hi.ports,
      fun p hp => (hmap p fun heq => hout b hb (heq ▸ hp)).trans (hi.held p hp), hi.refcnt⟩
  · exact h.starts
  · intro p hp
    obtain ⟨hp, hne⟩ := List.mem_filter.mp hp
    exact ⟨(hmap p (by simpa using hne)).trans (h.listen p hp).1, (h.listen p hp).2⟩
  · exact h.keys
  · exact h.bound

end PortInv

end LibTpa
