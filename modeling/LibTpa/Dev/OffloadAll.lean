/- LibTpa/Dev/OffloadAll
   digest: The rules of an owner are all installed or none, as far as their list has a name. -/

import LibTpa.Dev.Offload

set_option autoImplicit false

namespace LibTpa

def OffloadSt.added (s t : OffloadSt) : List RteFlow := t.created.drop s.created.length

/-- The law of a call with the result `r` for a fresh owner in `s`: an error leaves an empty
list and every flow of the call destroyed once; and once `destroy` was called for the
owner, each flow of the call was destroyed once. -/
structure AllOrNothing (destroy : OffloadSt → OffloadSt) (s : OffloadSt) (r : Int × OffloadSt) :
    Prop where
  failed : r.1 < 0 → r.2.list.flows = [] ∧ r.2.destroyed = s.destroyed ++ s.added r.2
  removed : (destroy r.2).destroyed = s.destroyed ++ s.added r.2 ∧
    (destroy r.2).created = r.2.created

/-- An owner without rules, where every `rte_flow_destroy` will succeed. -/
structure OffloadFresh (s : OffloadSt) : Prop where
  list : s.list = {}
  destroys : ∀ b ∈ s.oracles.destroyOk, b = true

/-- Whatever was created since `s` hangs on the list, and nothing of it is destroyed. -/
structure Hanging (s t : OffloadSt) (name : Option OffloadName) : Prop where
  created : t.created = s.created ++ t.list.flows
  destroyed : t.destroyed = s.destroyed
  name : t.list.name = name
  destroys : ∀ b ∈ t.oracles.destroyOk, b = true

/-- Whatever was created since `s` is destroyed, and the list is as at first. -/
structure Cleared (s t : OffloadSt) : Prop where
  list : t.list = {}
  destroyed : t.destroyed = s.destroyed ++ s.added t

variable {s t : OffloadSt} {name : Option OffloadName} {dev : OffloadDev}

theorem Hanging.added (h : Hanging s t name) : s.added t = t.list.flows := by
  unfold OffloadSt.added
  rw [h.created, List.drop_left]

private theorem rteFlowDestroy_ok (h : ∀ b ∈ s.oracles.destroyOk, b = true) (flow : RteFlow) :
    (rteFlowDestroy s flow).1 = true ∧
      (rteFlowDestroy s flow).2.destroyed = s.destroyed ++ [flow] ∧
      (rteFlowDestroy s flow).2.created = s.created ∧
      (rteFlowDestroy s flow).2.list = s.list ∧
      ∀ b ∈ (rteFlowDestroy s flow).2.oracles.destroyOk, b = true := by
  have hok : s.oracles.destroyOk.headD true = true := by
    cases hl : s.oracles.destroyOk with
    | nil => rfl
    | cons b l => exact h b (by rw [hl]; exact List.mem_cons_self)
  unfold rteFlowDestroy
  dsimp only
  rw [hok, if_pos rfl]
  exact ⟨rfl, rfl, rfl, rfl, fun b hb => h b (List.mem_of_mem_tail hb)⟩

private theorem destroyLoop_ok (flows : List RteFlow) : ∀ s : OffloadSt,
    (∀ b ∈ s.oracles.destroyOk, b = true) → s.list.flows = flows →
    (destroyLoop flows false s).2.destroyed = s.destroyed ++ flows ∧
      (destroyLoop flows false s).2.created = s.created ∧
      (destroyLoop flows false s).2.list = { s.list with flows := [] } := by
  induction flows with
  | nil =>
    intro s _ hl
    refine ⟨(List.append_nil s.destroyed).symm, rfl, ?_⟩
    show s.list = { s.list with flows := [] }
    rw [← hl]
  | cons flow rest ih =>
    intro s hd hl
    obtain ⟨h1, h2, h3, h4, h5⟩ := rteFlowDestroy_ok hd flow
    unfold destroyLoop
    dsimp only
    rw [h1]
    generalize rteFlowDestroy s flow = r at h2 h3 h4 h5 ⊢
    obtain ⟨h6, h7, h8⟩ := ih { r.2 with list := { r.2.list with flows := rest } } h5 rfl
    refine ⟨h6.trans ?_, h7.trans h3, h8.trans ?_⟩
    · rw [h2, List.append_assoc]
      rfl
    · rw [h4]

theorem Hanging.offloadDestroy {n : OffloadName} (h : Hanging s t (some n)) :
    Cleared s (offloadDestroy t).2 ∧ (LibTpa.offloadDestroy t).2.created = t.created := by
  obtain ⟨h1, h2, h3⟩ := destroyLoop_ok t.list.flows t h.destroys rfl
  unfold LibTpa.offloadDestroy
  rw [h.name]
  dsimp only
  refine ⟨⟨?_, ?_⟩, h2⟩
  · rw [h3]
  · rw [h1, h.destroyed, OffloadSt.added]
    rw [h2, h.created, List.drop_left]

theorem offloadDestroy_unnamed (h : t.list.name = none) : (offloadDestroy t).2 = t := by
  unfold offloadDestroy
  rw [h]

private theorem Hanging.offloadPorts (rule : OffloadRule) (priority : Nat) (ports : List Nat) :
    ∀ t : OffloadSt, Hanging s t name → Hanging s (offloadPorts rule priority ports t).2 name ∧
      t.list.flows <+: (LibTpa.offloadPorts rule priority ports t).2.list.flows := by
  induction ports with
  | nil => exact fun t h => ⟨h, List.prefix_rfl⟩
  | cons port rest ih =>
    intro t h
    unfold LibTpa.offloadPorts
    dsimp only
    split
    swap
    · exact ⟨⟨h.created, h.destroyed, h.name, h.destroys⟩, List.prefix_rfl⟩
    unfold doOffloadCreate
    cases t.malloc.2.oracles.flowOk.headD true with
    | false =>
      exact ⟨⟨h.created, h.destroyed, h.name, h.destroys⟩, List.prefix_rfl⟩
    | true =>
      obtain ⟨h1, h2⟩ := ih { t with
        created := t.created ++ [⟨t.created.length, port, rule, priority⟩]
        list := { t.list with flows := t.list.flows ++ [⟨t.created.length, port, rule, priority⟩] }
        oracles := { t.oracles with
          mallocOk := t.oracles.mallocOk.tail
          flowOk := t.oracles.flowOk.tail } }
        ⟨by rw [h.created, List.append_assoc], h.destroyed, h.name, h.destroys⟩
      exact ⟨h1, (List.prefix_append _ _).trans h2⟩

private theorem Hanging.offloadCreate {n : OffloadName} (dev : OffloadDev) (rule : OffloadRule)
    (priority : Nat) (h : Hanging s t (some n)) :
    ((LibTpa.offloadCreate dev t rule priority).1 = 0 ∧
      Hanging s (LibTpa.offloadCreate dev t rule priority).2 (some n)) ∨
    ((LibTpa.offloadCreate dev t rule priority).1 = -1 ∧
      Cleared s (LibTpa.offloadCreate dev t rule priority).2) := by
  obtain ⟨h1, -⟩ := Hanging.offloadPorts rule priority (List.range dev.nrPort) t h
  unfold LibTpa.offloadCreate
  dsimp only
  split
  · exact .inl ⟨rfl, h1⟩
  · exact .inr ⟨rfl, h1.offloadDestroy.1⟩

private theorem Hanging.offloadCreate_unnamed (dev : OffloadDev) (rule : OffloadRule)
    (priority : Nat) (h : Hanging s t none) :
    Hanging s (LibTpa.offloadCreate dev t rule priority).2 none ∧
      t.list.flows <+: (LibTpa.offloadCreate dev t rule priority).2.list.flows := by
  obtain ⟨h1, h2⟩ := Hanging.offloadPorts rule priority (List.range dev.nrPort) t h
  unfold LibTpa.offloadCreate
  dsimp only
  split
  · exact ⟨h1, h2⟩
  · rw [offloadDestroy_unnamed h1.name]
    exact ⟨h1, h2⟩

theorem Hanging.offloadRules {n : OffloadName} (dev : OffloadDev) (priority : Nat)
    (rules : List OffloadRule) : ∀ t : OffloadSt, Hanging s t (some n) →
    ((LibTpa.offloadRules dev priority rules t).1 = 0 ∧
      Hanging s (LibTpa.offloadRules dev priority rules t).2 (some n)) ∨
    ((LibTpa.offloadRules dev priority rules t).1 = -1 ∧
      Cleared s (LibTpa.offloadRules dev priority rules t).2) := by
  induction rules with
  | nil => exact fun t h => .inl ⟨rfl, h⟩
  | cons rule rest ih =>
    intro t h
    have hone := h.offloadCreate dev rule priority
    unfold LibTpa.offloadRules
    generalize LibTpa.offloadCreate dev t rule priority = r at hone ⊢
    rcases hone with ⟨h1, h2⟩ | ⟨h1, h2⟩
    · rw [if_neg (by rw [h1]; decide)]
      exact ih r.2 h2
    · rw [if_pos (by rw [h1]; decide)]
      exact .inr ⟨rfl, h2⟩

theorem Hanging.offloadRules_unnamed (dev : OffloadDev) (priority : Nat)
    (rules : List OffloadRule) :
    ∀ t : OffloadSt, Hanging s t none →
      Hanging s (LibTpa.offloadRules dev priority rules t).2 none ∧
      t.list.flows <+: (LibTpa.offloadRules dev priority rules t).2.list.flows := by
  induction rules with
  | nil => exact fun t h => ⟨h, List.prefix_rfl⟩
  | cons rule rest ih =>
    intro t h
    obtain ⟨h1, h2⟩ := h.offloadCreate_unnamed dev rule priority
    unfold LibTpa.offloadRules
    dsimp only
    generalize LibTpa.offloadCreate dev t rule priority = r at h1 h2 ⊢
    split
    · exact ⟨h1, h2⟩
    · obtain ⟨h3, h4⟩ := ih r.2 h1
      exact ⟨h3, h2.trans h4⟩

/-- The first rule gets its entry and its flow on the first port. -/
def FirstGranted (dev : OffloadDev) (t : OffloadSt) : Prop :=
  0 < dev.nrPort ∧ t.oracles.mallocOk.headD true = true ∧ t.oracles.flowOk.headD true = true

instance (dev : OffloadDev) (t : OffloadSt) : Decidable (FirstGranted dev t) :=
  inferInstanceAs (Decidable (_ ∧ _))

private theorem range_pos {n : Nat} (h : 0 < n) : ∃ rest, List.range n = 0 :: rest := by
  obtain ⟨m, rfl⟩ := Nat.exists_eq_add_of_lt h
  rw [Nat.zero_add, List.range_succ_eq_map]
  exact ⟨_, rfl⟩

private theorem offloadPorts_granted (rule : OffloadRule) (priority port : Nat) (rest : List Nat)
    (h : Hanging s t name) (hm : t.oracles.mallocOk.headD true = true)
    (hf : t.oracles.flowOk.headD true = true) :
    (offloadPorts rule priority (port :: rest) t).2.list.flows ≠ [] := by
  unfold offloadPorts
  rw [if_pos (show t.malloc.1 = true from hm)]
  unfold doOffloadCreate
  rw [show t.malloc.2.oracles.flowOk.headD true = true from hf, if_pos rfl]
  have hone : Hanging s { t with
      created := t.created ++ [⟨t.created.length, port, rule, priority⟩]
      list := { t.list with flows := t.list.flows ++ [⟨t.created.length, port, rule, priority⟩] }
      oracles := { t.oracles with
        mallocOk := t.oracles.mallocOk.tail
        flowOk := t.oracles.flowOk.tail } } name :=
    ⟨by rw [h.created, List.append_assoc], h.destroyed, h.name, h.destroys⟩
  obtain ⟨-, hpre⟩ := Hanging.offloadPorts rule priority rest _ hone
  intro hnil
  exact List.append_ne_nil_of_right_ne_nil _ (List.cons_ne_nil _ _)
    (List.prefix_nil.1 (hnil ▸ hpre))

private theorem offloadPorts_refused (rule : OffloadRule) (priority port : Nat) (rest : List Nat)
    (h : ¬ (t.oracles.mallocOk.headD true = true ∧ t.oracles.flowOk.headD true = true)) :
    (offloadPorts rule priority (port :: rest) t).1 = false ∧
      (offloadPorts rule priority (port :: rest) t).2.list = t.list := by
  unfold offloadPorts
  by_cases hm : t.malloc.1 = true
  swap
  · rw [if_neg hm]
    exact ⟨rfl, rfl⟩
  rw [if_pos hm]
  have hf : ¬ t.malloc.2.oracles.flowOk.headD true = true := fun hf => h ⟨hm, hf⟩
  unfold doOffloadCreate
  rw [if_neg hf]
  exact ⟨rfl, rfl⟩

private theorem offloadCreate_granted (rule : OffloadRule) (priority : Nat) (h : Hanging s t none)
    (hg : FirstGranted dev t) : (offloadCreate dev t rule priority).2.list.flows ≠ [] := by
  obtain ⟨hn, hm, hf⟩ := hg
  obtain ⟨rest, hrest⟩ := range_pos hn
  obtain ⟨h1, -⟩ := Hanging.offloadPorts rule priority (List.range dev.nrPort) t h
  have hne := offloadPorts_granted rule priority 0 rest h hm hf
  rw [← hrest] at hne
  unfold offloadCreate
  dsimp only
  split
  · exact hne
  · rw [offloadDestroy_unnamed h1.name]
    exact hne

private theorem offloadCreate_refused (rule : OffloadRule) (priority : Nat) (h : Hanging s t none)
    (hg : ¬ FirstGranted dev t) :
    (offloadCreate dev t rule priority).2.list.flows = t.list.flows ∧
      (dev.nrPort = 0 ∨ (offloadCreate dev t rule priority).1 < 0) := by
  unfold offloadCreate
  dsimp only
  rcases Nat.eq_zero_or_pos dev.nrPort with h0 | hn
  · rw [h0]
    exact ⟨rfl, .inl rfl⟩
  obtain ⟨rest, hrest⟩ := range_pos hn
  obtain ⟨h1, h2⟩ := offloadPorts_refused rule priority 0 rest (fun hmf => hg ⟨hn, hmf⟩)
  rw [hrest]
  rw [h1, if_neg Bool.false_ne_true]
  dsimp only
  rw [offloadDestroy_unnamed (by rw [h2, h.name]), h2]
  exact ⟨rfl, .inr (by decide)⟩

private theorem offloadRules_refused (priority : Nat) (rules : List OffloadRule) :
    ∀ t : OffloadSt, Hanging s t none → ¬ FirstGranted dev t →
    (offloadRules dev priority rules t).2.list.flows = t.list.flows := by
  induction rules with
  | nil => exact fun t _ _ => rfl
  | cons rule rest ih =>
    intro t h hg
    obtain ⟨h1, h2⟩ := offloadCreate_refused rule priority h hg
    obtain ⟨h3, -⟩ := h.offloadCreate_unnamed dev rule priority
    unfold offloadRules
    dsimp only
    generalize offloadCreate dev t rule priority = r at h1 h2 h3 ⊢
    split
    · exact h1
    · rename_i hok
      have h0 : dev.nrPort = 0 := h2.resolve_right hok
      exact (ih r.2 h3 (fun hg => by have := hg.1; omega)).trans h1

/-- Without a name, rules are left on the device exactly when the first one is granted. -/
private theorem offloadRules_unnamed_iff (dev : OffloadDev) (priority : Nat)
    (rules : List OffloadRule) (h : Hanging s t none) (ht : t.list.flows = []) :
    (offloadRules dev priority rules t).2.list.flows ≠ [] ↔ rules ≠ [] ∧ FirstGranted dev t := by
  by_cases hg : FirstGranted dev t
  swap
  · rw [offloadRules_refused priority rules t h hg]
    exact ⟨fun hne => absurd ht hne, fun hr => absurd hr.2 hg⟩
  cases rules with
  | nil => exact ⟨fun hne => absurd ht hne, fun hr => absurd rfl hr.1⟩
  | cons rule rest =>
    refine ⟨fun _ => ⟨List.cons_ne_nil _ _, hg⟩, fun _ => ?_⟩
    have h1 := offloadCreate_granted rule priority h hg
    obtain ⟨h2, -⟩ := h.offloadCreate_unnamed dev rule priority
    unfold offloadRules
    dsimp only
    split
    · exact h1
    · intro hnil
      obtain ⟨-, h3⟩ := h2.offloadRules_unnamed dev priority rest
      exact h1 (List.prefix_nil.1 (hnil ▸ h3))

theorem AllOrNothing.of_hanging {n : OffloadName} {r : Int × OffloadSt} (h0 : r.1 = 0)
    (h : Hanging s r.2 (some n)) : AllOrNothing (fun t => (offloadDestroy t).2) s r := by
  obtain ⟨h1, h2⟩ := h.offloadDestroy
  refine ⟨fun hneg => ?_, ?_, h2⟩
  · rw [h0] at hneg
    exact absurd hneg (by decide)
  · rw [h1.destroyed]
    unfold OffloadSt.added
    rw [h2]

theorem AllOrNothing.of_cleared {r : Int × OffloadSt} (h : Cleared s r.2) :
    AllOrNothing (fun t => (offloadDestroy t).2) s r := by
  refine ⟨fun _ => ⟨by rw [h.list], h.destroyed⟩, ?_⟩
  rw [offloadDestroy_unnamed (by rw [h.list])]
  exact ⟨h.destroyed, rfl⟩

theorem Hanging.allOrNothing_iff {r : Int × OffloadSt} (h : Hanging s r.2 none) :
    AllOrNothing (fun t => (LibTpa.offloadDestroy t).2) s r ↔ r.2.list.flows = [] := by
  have hdes := offloadDestroy_unnamed h.name
  constructor
  · intro hall
    have h1 := hall.removed.1
    rw [hdes, h.destroyed, h.added] at h1
    exact List.self_eq_append_right.1 h1
  · intro hnil
    have hkeep : r.2.destroyed = s.destroyed ++ s.added r.2 := by
      rw [h.added, hnil, List.append_nil, h.destroyed]
    refine ⟨fun _ => ⟨hnil, hkeep⟩, ?_⟩
    rw [hdes]
    exact ⟨hkeep, rfl⟩

/-- The name is refused, and then the first rule gets its entry and its flow. -/
def Unremovable (dev : OffloadDev) (rules : List OffloadRule) (s : OffloadSt) : Prop :=
  s.malloc.1 = false ∧ rules ≠ [] ∧ FirstGranted dev s.malloc.2

theorem OffloadFresh.allOrNothing_iff (h : OffloadFresh s) (dev : OffloadDev) (priority : Nat)
    (rules : List OffloadRule) (n : OffloadName) :
    AllOrNothing (fun t => (offloadDestroy t).2) s
      (offloadRules dev priority rules (offloadSetName s n)) ↔
      ¬ Unremovable dev rules s := by
  have hflows : s.list.flows = [] := by rw [h.list]
  cases hm : s.malloc.1 with
  | true =>
    have hset : Hanging s (offloadSetName s n) (some n) := by
      unfold offloadSetName
      dsimp only
      rw [hm, if_pos rfl]
      refine ⟨?_, rfl, rfl, h.destroys⟩
      show s.created = s.created ++ s.list.flows
      rw [hflows, List.append_nil]
    refine ⟨fun _ hu => ?_, fun _ => ?_⟩
    · exact absurd (hm.symm.trans hu.1) (by decide)
    · rcases hset.offloadRules dev priority rules with ⟨h0, h1⟩ | ⟨-, h1⟩
      · exact .of_hanging h0 h1
      · exact .of_cleared h1
  | false =>
    have hname : offloadSetName s n = s.malloc.2 := by
      unfold offloadSetName
      dsimp only
      rw [hm, if_neg Bool.false_ne_true]
    have hset : Hanging s s.malloc.2 none := by
      refine ⟨?_, rfl, ?_, h.destroys⟩
      · show s.created = s.created ++ s.list.flows
        rw [hflows, List.append_nil]
      · show s.list.name = none
        rw [h.list]
    rw [hname, (hset.offloadRules_unnamed dev priority rules).1.allOrNothing_iff]
    have hiff := offloadRules_unnamed_iff dev priority rules hset hflows
    constructor
    · exact fun hnil hu => hiff.2 hu.2 hnil
    · exact fun hu => of_not_not fun hne => hu ⟨hm, hiff.1 hne⟩

theorem OffloadFresh.allOrNothing_skip (h : OffloadFresh s) :
    AllOrNothing (fun t => (offloadDestroy t).2) s (0, s) := by
  have hadded : s.added s = [] := List.drop_length
  refine ⟨fun hneg => absurd hneg (Int.lt_irrefl 0), ?_⟩
  rw [offloadDestroy_unnamed (by rw [h.list]), hadded, List.append_nil]
  exact ⟨rfl, rfl⟩

def tsockRules (cfg : OffloadCfg) (dev : OffloadDev) (t : OffloadSock) : List OffloadRule :=
  (if dev.cfg.ip4 ≠ 0 ∧ (isIp6Any t.slot.localIp || tpaIpIsIpv4 t.slot.localIp) then
    [tsockOffloadRule cfg dev t false] else []) ++
  if isIp6Any t.slot.localIp || !tpaIpIsIpv4 t.slot.localIp then
    [tsockOffloadRule cfg dev t true] else []

def SockOffloaded (cfg : OffloadCfg) (dev : OffloadDev) (t : OffloadSock) : Prop :=
  dev.hasDpdkPort = true ∧ (t.slot.state = .listen ∨ cfg.enableSockOffload = true)

def BlockOffloaded (cfg : OffloadCfg) (dev : OffloadDev) : Prop :=
  dev.hasDpdkPort = true ∧ cfg.enablePortBlockOffload = true

private theorem tsockOffloadIpv6_rules (cfg : OffloadCfg) (dev : OffloadDev) (s : OffloadSt)
    (t : OffloadSock) : tsockOffloadIpv6 cfg dev s t =
      offloadRules dev (if t.slot.state = .listen then 1 else 0)
        (if isIp6Any t.slot.localIp || !tpaIpIsIpv4 t.slot.localIp then
          [tsockOffloadRule cfg dev t true] else []) s := by
  unfold tsockOffloadIpv6
  split
  · rfl
  · rfl

theorem tsockOffloadCreate_rules (cfg : OffloadCfg) (dev : OffloadDev) (s : OffloadSt)
    (t : OffloadSock) (h : SockOffloaded cfg dev t) :
    tsockOffloadCreate cfg dev s t = offloadRules dev (if t.slot.state = .listen then 1 else 0)
      (tsockRules cfg dev t) (offloadSetName s (.sock t.wid t.slot.sid)) := by
  obtain ⟨h1, h2⟩ := h
  have hskip : ¬ (t.slot.state ≠ .listen ∧ (!cfg.enableSockOffload) = true) := by
    rintro ⟨h3, h4⟩
    rw [h2.resolve_left h3] at h4
    exact absurd h4 (by decide)
  unfold tsockOffloadCreate tsockRules
  rw [h1, if_neg (by decide), if_neg hskip]
  dsimp only
  split
  · rw [List.singleton_append, offloadRules, tsockOffloadDoCreate]
    rw [tsockOffloadIpv6_rules]
  · rw [List.nil_append, tsockOffloadIpv6_rules]

theorem tsockOffloadCreate_skipped (cfg : OffloadCfg) (dev : OffloadDev) (s : OffloadSt)
    (t : OffloadSock) (h : ¬ SockOffloaded cfg dev t) :
    tsockOffloadCreate cfg dev s t = (0, s) := by
  unfold tsockOffloadCreate
  by_cases h1 : dev.hasDpdkPort = true
  swap
  · rw [Bool.eq_false_of_not_eq_true h1]
    rfl
  have h2 : t.slot.state ≠ .listen ∧ (!cfg.enableSockOffload) = true := by
    refine ⟨fun hl => h ⟨h1, .inl hl⟩, ?_⟩
    rw [Bool.eq_false_of_not_eq_true (fun he => h ⟨h1, .inr he⟩)]
    rfl
  rw [if_pos h2]
  exact ite_self _

/-- The rules of a socket or of a port block are installed together or not at all, and
removed together, exactly when it does not happen that the name of the list is refused
and a rule is granted after that. -/
theorem offload_allOrNothing_iff (cfg : OffloadCfg) (dev : OffloadDev) (s : OffloadSt)
    (h : OffloadFresh s) :
    (∀ t : OffloadSock, AllOrNothing tsockOffloadDestroy s (tsockOffloadCreate cfg dev s t) ↔
      ¬ (SockOffloaded cfg dev t ∧ Unremovable dev (tsockRules cfg dev t) s)) ∧
    ∀ b : OffloadBlock,
      AllOrNothing portBlockOffloadDestroy s (portBlockOffloadCreate cfg dev s b) ↔
      ¬ (BlockOffloaded cfg dev ∧ Unremovable dev (dev.localIps.map (blockOffloadRule b)) s) := by
  constructor
  · intro t
    by_cases ht : SockOffloaded cfg dev t
    · rw [tsockOffloadCreate_rules cfg dev s t ht]
      refine (h.allOrNothing_iff dev _ _ _).trans (not_congr ?_)
      exact ⟨fun hu => ⟨ht, hu⟩, fun hu => hu.2⟩
    · rw [tsockOffloadCreate_skipped cfg dev s t ht]
      exact ⟨fun _ hu => ht hu.1, fun _ => h.allOrNothing_skip⟩
  · intro b
    unfold portBlockOffloadCreate
    by_cases hb : BlockOffloaded cfg dev
    · rw [hb.1, hb.2, if_neg (by decide), if_neg (by decide)]
      refine (h.allOrNothing_iff dev _ _ _).trans (not_congr ?_)
      exact ⟨fun hu => ⟨hb, hu⟩, fun hu => hu.2⟩
    · have hskip :
        ¬ (BlockOffloaded cfg dev ∧ Unremovable dev (dev.localIps.map (blockOffloadRule b)) s) :=
        fun hu => hb hu.1
      refine ⟨fun _ => hskip, fun _ => ?_⟩
      by_cases h1 : dev.hasDpdkPort = true
      · rw [Bool.eq_false_of_not_eq_true (fun he => hb ⟨h1, he⟩), h1]
        exact h.allOrNothing_skip
      · rw [Bool.eq_false_of_not_eq_true h1]
        exact h.allOrNothing_skip

def dualStack : OffloadDev := { cfg := { ip4 := 0x0a000001, ip6 := 1 } }

def anyListener : OffloadSock := ⟨{ sid := 0, state := .listen, localPort := 80 }, 0, false⟩

def aBlock : OffloadBlock := ⟨1024, 1151, 0xff80, 0⟩

/-- Only the name is refused: both rules of the listener stay on the device after
`tsock_offload_destroy`. Then the second flow of a port block is refused as well, and the
call reports an error with the first one in place. -/
theorem unnamed_rules_stay :
    let s : OffloadSt := ⟨[], [], {}, { mallocOk := [false] }⟩
    let u : OffloadSt := ⟨[], [], {}, { mallocOk := [false], flowOk := [true, false] }⟩
    let t := tsockOffloadCreate {} dualStack s anyListener
    let b := portBlockOffloadCreate {} dualStack u aBlock
    t.1 = 0 ∧ (tsockOffloadDestroy t.2).destroyed = [] ∧
      (tsockOffloadDestroy t.2).created.length = 2 ∧
      ¬ AllOrNothing tsockOffloadDestroy s t ∧
    b.1 = -1 ∧ b.2.list.flows.length = 1 ∧ b.2.destroyed = [] ∧
      ¬ AllOrNothing portBlockOffloadDestroy u b := by
  refine ⟨by decide, by decide, by decide, fun h => ?_, by decide, by decide,
    by decide, fun h => ?_⟩
  · exact absurd h.removed.1 (by decide)
  · exact absurd (h.failed (by decide)).1 (by decide)

theorem offload_allOrNothing_second_refused :
    let s : OffloadSt := ⟨[], [], {}, { flowOk := [true, false] }⟩
    let t := tsockOffloadCreate {} dualStack s anyListener
    let b := portBlockOffloadCreate {} dualStack s aBlock
    OffloadFresh s ∧ t.1 = -1 ∧ t.2.destroyed.length = 1 ∧ AllOrNothing tsockOffloadDestroy s t ∧
      b.1 = -1 ∧ b.2.destroyed.length = 1 ∧ AllOrNothing portBlockOffloadDestroy s b := by
  have hfresh : OffloadFresh ⟨[], [], {}, { flowOk := [true, false] }⟩ :=
    ⟨rfl, fun _ hb => absurd hb List.not_mem_nil⟩
  obtain ⟨h1, h2⟩ := offload_allOrNothing_iff {} dualStack _ hfresh
  refine ⟨hfresh, by decide, by decide, (h1 anyListener).2 fun hu => ?_, by decide, by decide,
    (h2 aBlock).2 fun hu => ?_⟩
  · exact absurd hu.2.1 (by decide)
  · exact absurd hu.2.1 (by decide)

end LibTpa
