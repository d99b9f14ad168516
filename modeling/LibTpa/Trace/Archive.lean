/- LibTpa/Trace/Archive
   digest: The archive directory: which files are kept when any file operation may fail. -/

import Mathlib.Data.List.TakeWhile
import Mathlib.Order.Interval.Finset.Nat
import LibTpa.Lib.Run
import LibTpa.Tcp.Basic

set_option autoImplicit false

namespace LibTpa

open LibTpa.Lib

abbrev ArchiveId := BitVec 64

structure ArchiveFile where
  data : List Byte
  whole : Bool
  deriving DecidableEq

/-- The files of the directory whose name is the prefix and an id. -/
abbrev ArchiveDir := ArchiveId → Option ArchiveFile

structure ArchiveCtx where
  nrToKeep : BitVec 32
  upperId : ArchiveId := 0
  lowerId : ArchiveId := 0
  ids : List ArchiveId := []
  deriving DecidableEq

def archiveCtxSetNrToKeep (ctx : ArchiveCtx) (nrToKeep : BitVec 32) : ArchiveCtx :=
  { ctx with nrToKeep := nrToKeep, lowerId := ctx.upperId - nrToKeep.signExtend 64 + 1 }

def archiveCtxPushId (ctx : ArchiveCtx) (id : ArchiveId) : ArchiveCtx :=
  { ctx with ids := ctx.ids ++ [id] }

def sortId (a b : ArchiveId) : Int := if b < a then 1 else 0

/-- One round of the loop of `ctx_id_init`; an entry is the number behind the prefix, if there is
one. -/
def readEntry (ctx : ArchiveCtx) : Option ArchiveId → ArchiveCtx
  | none => ctx
  | some id =>
    archiveCtxPushId { ctx with upperId := if ctx.upperId < id then id else ctx.upperId } id

/-- `ctx_id_init` on the entries in the order of `readdir`. -/
def ctxIdInit (ctx : ArchiveCtx) (entries : List (Option ArchiveId)) : ArchiveCtx :=
  let ctx := entries.foldl readEntry ctx
  { ctx with
    lowerId := ctx.upperId - ctx.nrToKeep.signExtend 64 + 1
    -- `qsort` merges, and takes the left one unless `sort_id` is positive
    ids := ctx.ids.mergeSort fun a b => decide (sortId a b ≤ 0) }

structure Archive where
  ctx : ArchiveCtx
  dir : ArchiveDir

def archiveCtxInit (dir : ArchiveDir) (entries : List (Option ArchiveId)) (nrToKeep : BitVec 32) :
    Archive :=
  ⟨ctxIdInit { nrToKeep := nrToKeep } entries, dir⟩

/-- A call of `archive_raw`: what it is given, and how the file operations go that it makes.
`written` is what `write` answers, without a result an error. -/
structure ArchiveCall where
  data : List Byte
  unlinkOk : Nat → Bool := fun _ => true
  openOk : Bool := true
  written : Option Nat := some data.length

/-- The loop of `delete_old_archives`: whether it gets through, how many files it has deleted, and
the directory. A file that is not there cannot be unlinked. -/
def deleteLoop (lowerId : ArchiveId) (unlinkOk : Nat → Bool) :
    List ArchiveId → Nat → ArchiveDir → Bool × Nat × ArchiveDir
  | [], i, dir => (true, i, dir)
  | id :: ids, i, dir =>
    if lowerId < id then (true, i, dir)
    else if unlinkOk i = false ∨ dir id = none then (false, i, dir)
    else deleteLoop lowerId unlinkOk ids (i + 1) (Function.update dir id none)

def deleteOldArchives (unlinkOk : Nat → Bool) (a : Archive) : Bool × Archive :=
  if a.ctx.ids.length < a.ctx.nrToKeep.toNat then (true, a)
  else
    let r := deleteLoop a.ctx.lowerId unlinkOk a.ctx.ids 0 a.dir
    if r.1 then (true, ⟨{ a.ctx with ids := a.ctx.ids.drop r.2.1 }, r.2.2⟩)
      else (false, { a with dir := r.2.2 })

/-- What stays in a file behind the bytes that are written at its start. -/
def overwrite (file : Option ArchiveFile) (data : List Byte) : List Byte :=
  data ++ (file.elim [] ArchiveFile.data).drop data.length

def Archive.push (a : Archive) (data : List Byte) : Archive :=
  ⟨archiveCtxPushId
      { a.ctx with upperId := a.ctx.upperId + 1, lowerId := a.ctx.lowerId + 1 }
      (a.ctx.upperId + 1),
    Function.update a.dir (a.ctx.upperId + 1) (some ⟨data, true⟩)⟩

/-- `archive_raw` once the old archives are deleted; the file is opened without `O_TRUNC`. -/
def archiveWrite (c : ArchiveCall) (a : Archive) : ArchiveId × Archive :=
  let id := a.ctx.upperId + 1
  let data := overwrite (a.dir id) (c.data.take (c.written.getD 0))
  if c.openOk = false then (-1, a)
  else if c.written ≠ some c.data.length
    then (-1, { a with dir := Function.update a.dir id (some ⟨data, false⟩) })
  else (id, a.push data)

def archiveRaw (c : ArchiveCall) (a : Archive) : ArchiveId × Archive :=
  let r := deleteOldArchives c.unlinkOk a
  if r.1 then archiveWrite c r.2 else (-1, r.2)

inductive ArchiveOp
  | raw (c : ArchiveCall)
  | setNrToKeep (nrToKeep : BitVec 32)

def archiveStep (a : Archive) : ArchiveOp → Archive
  | .raw c => (archiveRaw c a).2
  | .setNrToKeep n => { a with ctx := archiveCtxSetNrToKeep a.ctx n }

def Archive.Complete (a : Archive) (id : ArchiveId) : Prop := ∃ file ∈ a.dir id, file.whole = true

/-- The ids are those of the complete archives, in order. -/
structure Archive.Exact (a : Archive) : Prop where
  sorted : a.ctx.ids.Pairwise (· < ·)
  mem : ∀ id, id ∈ a.ctx.ids ↔ a.Complete id

def Archive.nrOld (a : Archive) : Nat :=
  if a.ctx.ids.length < a.ctx.nrToKeep.toNat then 0
  else (a.ctx.ids.takeWhile fun id => decide (id ≤ a.ctx.lowerId)).length

def ArchiveCall.Works (c : ArchiveCall) (a : Archive) : Prop :=
  (∀ i < a.nrOld, c.unlinkOk i = true) ∧ c.openOk = true ∧ c.written = some c.data.length

/-- What a call of `archive_raw` that returns `id` has to leave behind. -/
structure Retained (c : ArchiveCall) (a : Archive) (id : ArchiveId) (a' : Archive) : Prop where
  exact : a'.Exact
  works : c.Works a → id ≠ -1
  count : id ≠ -1 → a'.ctx.ids.length ≤ a'.ctx.nrToKeep.toNat ∧ ∀ i, a'.dir i ≠ none →
    i ∈ a'.ctx.ids
  newest : id ≠ -1 → a.ctx.upperId < id ∧ ∀ i, a.Complete i ∨ i = id → ∀ j, a'.Complete j →
    j ≤ i → a'.Complete i
  data : id ≠ -1 → a'.dir id = some ⟨c.data, true⟩

def RetainedStep (a : Archive) : ArchiveOp → Prop
  | .raw c => Retained c a (archiveRaw c a).1 (archiveRaw c a).2
  | .setNrToKeep n => (archiveStep a (.setNrToKeep n)).Exact

/-- The calls that retain what they should: no file is deleted before the deletion fails, and what
an earlier call has left of the new file is overwritten. -/
def Careful (a : Archive) : ArchiveOp → Prop
  | .raw c => (c.unlinkOk 0 = true → ∀ i < a.nrOld, c.unlinkOk i = true) ∧
      (c.Works a → ∀ file ∈ a.dir (a.ctx.upperId + 1), file.data.length ≤ c.data.length)
  | .setNrToKeep _ => True

def InIds (a : Archive) : ArchiveOp → Prop
  | .raw _ => a.ctx.upperId.toNat + 2 < 2 ^ 64
  | .setNrToKeep n => 1 ≤ n.toInt

instance ArchiveCall.Works.decidable (c : ArchiveCall) (a : Archive) : Decidable (c.Works a) :=
  inferInstanceAs (Decidable ((∀ i < a.nrOld, c.unlinkOk i = true) ∧ _ ∧ _))

instance Careful.decidable (a : Archive) : (op : ArchiveOp) → Decidable (Careful a op)
  | .raw c => inferInstanceAs (Decidable ((_ → ∀ i < a.nrOld, c.unlinkOk i = true) ∧
      (c.Works a → ∀ file ∈ a.dir (a.ctx.upperId + 1), file.data.length ≤ c.data.length)))
  | .setNrToKeep _ => isTrue trivial

instance InIds.decidable (a : Archive) : (op : ArchiveOp) → Decidable (InIds a op)
  | .raw _ => inferInstanceAs (Decidable (_ < _))
  | .setNrToKeep _ => inferInstanceAs (Decidable (_ ≤ _))

structure ArchiveDir.Lists (dir : ArchiveDir) (entries : List (Option ArchiveId)) : Prop where
  nodup : (entries.filterMap id).Nodup
  mem : ∀ i, some i ∈ entries ↔ dir i ≠ none
  whole : ∀ i, ∀ file ∈ dir i, file.whole = true

structure Archive.Inv (a : Archive) : Prop where
  exact : a.Exact
  upper : ∀ id ∈ a.ctx.ids, id ≤ a.ctx.upperId
  lower : a.ctx.lowerId = a.ctx.upperId - a.ctx.nrToKeep.signExtend 64 + 1
  keep : 1 ≤ a.ctx.nrToKeep.toInt
  part : ∀ id, ∀ file ∈ a.dir id, file.whole = false → id = a.ctx.upperId + 1

section Delete

variable {lowerId : ArchiveId} {unlinkOk : Nat → Bool} {ids : List ArchiveId}
  {dir : ArchiveDir} {i j : Nat}

theorem deleteLoop_none {id : ArchiveId} (h : dir id = none) :
    (deleteLoop lowerId unlinkOk ids i dir).2.2 id = none := by
  induction ids generalizing i dir with
  | nil => exact h
  | cons x ids ih =>
    rw [deleteLoop]
    split
    · exact h
    split
    · exact h
    · apply ih
      rw [Function.update_apply]
      split
      · rfl
      · exact h

theorem deleteLoop_fails (hj : j < (ids.takeWhile fun id => decide (id ≤ lowerId)).length)
    (hbad : unlinkOk (i + j) = false) : (deleteLoop lowerId unlinkOk ids i dir).1 = false := by
  induction ids generalizing i j dir with
  | nil => exact absurd hj (Nat.not_lt_zero j)
  | cons x ids ih =>
    rw [List.takeWhile_cons] at hj
    split at hj
    · next hx =>
      rw [deleteLoop, if_neg (BitVec.not_lt.mpr (of_decide_eq_true hx))]
      split
      · rfl
      · next hok =>
        cases j with
        | zero => exact absurd (Or.inl hbad) hok
        | succ j =>
          rw [← Nat.add_assoc, Nat.add_right_comm] at hbad
          exact ih (Nat.lt_of_succ_lt_succ hj) hbad
    · exact absurd hj (Nat.not_lt_zero j)

theorem deleteLoop_deletes (hdir : ∀ id ∈ ids, dir id ≠ none) (hnd : ids.Nodup)
    (hok : ∀ j < (ids.takeWhile fun id => decide (id ≤ lowerId)).length, unlinkOk (i + j) = true) :
    deleteLoop lowerId unlinkOk ids i dir =
      (true, i + (ids.takeWhile fun id => decide (id ≤ lowerId)).length,
        fun id => if id ∈ ids.takeWhile fun id => decide (id ≤ lowerId) then none else dir id) := by
  induction ids generalizing i dir with
  | nil => rfl
  | cons x ids ih =>
    rw [List.takeWhile_cons] at hok ⊢
    rw [deleteLoop]
    by_cases hx : x ≤ lowerId
    · rw [if_pos (decide_eq_true hx)] at hok ⊢
      rw [if_neg (BitVec.not_lt.mpr hx), if_neg]
      · rw [ih]
        · refine Prod.ext rfl (Prod.ext ?_ (funext fun id => ?_))
          · simp only [List.length_cons]
            omega
          · simp only [List.mem_cons, Function.update_apply]
            split_ifs <;> simp_all
        · intro id hid
          have hne : id ≠ x := fun he => (List.nodup_cons.mp hnd).1 (he ▸ hid)
          rw [Function.update_of_ne hne]
          exact hdir id (List.mem_cons_of_mem x hid)
        · exact (List.nodup_cons.mp hnd).2
        · intro j hj
          rw [Nat.add_assoc, Nat.add_comm 1]
          exact hok (j + 1) (Nat.succ_lt_succ hj)
      · rintro (h | h)
        · exact Bool.false_ne_true (h.symm.trans (hok 0 (Nat.succ_pos _)))
        · exact hdir x (List.mem_cons_self ..) h
    · rw [if_pos (BitVec.not_le.mp hx), if_neg fun h => hx (of_decide_eq_true h)]
      simp

end Delete

theorem nodup_of_sorted {l : List ArchiveId} (h : l.Pairwise (· < ·)) : l.Nodup := by
  refine h.imp ?_
  rintro x y hlt rfl
  exact BitVec.lt_irrefl x hlt

theorem length_le_of_between {l : List ArchiveId} {m n : Nat} (hnd : l.Nodup)
    (h : ∀ x ∈ l, m ≤ x.toNat ∧ x.toNat < n) : l.length ≤ n - m := by
  have hmap : (l.map BitVec.toNat).Nodup := hnd.map BitVec.toNat_injective
  have hsub : (l.map BitVec.toNat).toFinset ⊆ Finset.Ico m n := by
    intro x hx
    obtain ⟨y, hy, rfl⟩ := List.mem_map.mp (List.mem_toFinset.mp hx)
    exact Finset.mem_Ico.mpr (h y hy)
  have hcard := Finset.card_le_card hsub
  rwa [List.toFinset_card_of_nodup hmap, List.length_map, Nat.card_Ico] at hcard

theorem lt_of_mem_dropWhile {l : List ArchiveId} {b x : ArchiveId} (h : l.Pairwise (· < ·))
    (hx : x ∈ l.dropWhile fun id => decide (id ≤ b)) : b < x := by
  induction l with
  | nil => cases hx
  | cons y l ih =>
    obtain ⟨hy, hl⟩ := List.pairwise_cons.mp h
    rw [List.dropWhile_cons] at hx
    split at hx
    · exact ih hl hx
    · next hb =>
      have hb : b < y := BitVec.not_le.mp fun hle => hb (decide_eq_true hle)
      rcases List.mem_cons.mp hx with rfl | hx
      · exact hb
      · exact BitVec.lt_trans hb (hy x hx)

private theorem signExtend_keep {k : BitVec 32} (h : 1 ≤ k.toInt) :
    (k.signExtend 64).toNat = k.toNat ∧ 1 ≤ k.toNat ∧ k.toNat < 2 ^ 31 := by
  have hk := k.isLt
  rw [BitVec.toInt_eq_toNat_cond] at h
  have hmsb : k.msb = false := by
    rw [BitVec.msb_eq_decide]
    exact decide_eq_false (by omega)
  rw [BitVec.signExtend_eq_setWidth_of_msb_false hmsb, BitVec.toNat_setWidth]
  omega

namespace Archive

variable {a : Archive} {c : ArchiveCall}

theorem Exact.dir_ne (h : a.Exact) {id : ArchiveId} (hid : id ∈ a.ctx.ids) : a.dir id ≠ none := by
  obtain ⟨file, hfile, -⟩ := (h.mem id).mp hid
  exact fun hnone => Option.some_ne_none file (hfile.symm.trans hnone)

theorem Inv.lower_add (h : a.Inv) (hfull : a.ctx.nrToKeep.toNat ≤ a.ctx.ids.length) :
    a.ctx.lowerId.toNat + a.ctx.nrToKeep.toNat = a.ctx.upperId.toNat + 1 := by
  obtain ⟨hext, hpos, -⟩ := signExtend_keep h.keep
  have hcount : a.ctx.ids.length ≤ a.ctx.upperId.toNat + 1 - 0 :=
    length_le_of_between (nodup_of_sorted h.exact.sorted) fun x hx =>
      ⟨Nat.zero_le _, Nat.lt_succ_of_le (h.upper x hx)⟩
  have hlt := a.ctx.upperId.isLt
  rw [h.lower, BitVec.toNat_add, BitVec.toNat_sub, hext, show (1 : ArchiveId).toNat = 1 from rfl]
  omega

theorem next_notMem (h : a.Inv) (hleft : a.ctx.upperId.toNat + 2 < 2 ^ 64) :
    a.ctx.upperId + 1 ∉ a.ctx.ids := by
  intro hmem
  have hle := h.upper _ hmem
  bv_omega

structure Pruned (a b : Archive) : Prop where
  inv : b.Inv
  ctx : b.ctx = { a.ctx with ids := b.ctx.ids }
  room : b.ctx.ids.length < b.ctx.nrToKeep.toNat
  sub : ∀ id ∈ b.ctx.ids, id ∈ a.ctx.ids
  up : ∀ id ∈ a.ctx.ids, ∀ j ∈ b.ctx.ids, j ≤ id → id ∈ b.ctx.ids
  next : b.dir (a.ctx.upperId + 1) = a.dir (a.ctx.upperId + 1)

theorem Inv.deleteOldArchives (h : a.Inv) (hleft : a.ctx.upperId.toNat + 2 < 2 ^ 64)
    (hok : ∀ i < a.nrOld, c.unlinkOk i = true) :
    ∃ b, LibTpa.deleteOldArchives c.unlinkOk a = (true, b) ∧ Pruned a b := by
  unfold LibTpa.deleteOldArchives
  unfold nrOld at hok
  split at hok
  · next hfew =>
    rw [if_pos hfew]
    exact ⟨a, rfl, h, rfl, hfew, fun _ hid => hid, fun id hid _ _ _ => hid, rfl⟩
  · next hfull =>
    have hloop :=
      deleteLoop_deletes (i := 0) (fun _ hid => h.exact.dir_ne hid) (nodup_of_sorted h.exact.sorted)
      (by simpa only [Nat.zero_add] using hok)
    have hsplit :=
      List.takeWhile_append_dropWhile (p := fun id => decide (id ≤ a.ctx.lowerId)) (l := a.ctx.ids)
    have hdrop : a.ctx.ids.drop (a.ctx.ids.takeWhile fun id => decide (id ≤ a.ctx.lowerId)).length =
        a.ctx.ids.dropWhile fun id => decide (id ≤ a.ctx.lowerId) := by
      conv_lhs => arg 2; rw [← hsplit]
      exact List.drop_left
    rw [if_neg hfull, hloop]
    rw [if_pos rfl, Nat.zero_add, hdrop]
    have hold : ∀ id ∈ a.ctx.ids.takeWhile fun id => decide (id ≤ a.ctx.lowerId), id ∈ a.ctx.ids ∧
      id ≤ a.ctx.lowerId := by
      intro id hid
      have hle := List.mem_takeWhile_imp hid
      exact ⟨(List.takeWhile_sublist _).mem hid, of_decide_eq_true hle⟩
    have hmem : ∀ id, id ∈ (a.ctx.ids.dropWhile fun id => decide (id ≤ a.ctx.lowerId)) ↔
        id ∈ a.ctx.ids ∧ a.ctx.lowerId < id := by
      intro id
      constructor
      · exact fun hid => ⟨(List.dropWhile_sublist _).mem hid,
          lt_of_mem_dropWhile h.exact.sorted hid⟩
      · rintro ⟨hid, hlt⟩
        rw [← hsplit] at hid
        exact (List.mem_append.mp hid).resolve_left fun hid => BitVec.not_lt.mpr (hold id hid).2 hlt
    have hadd := h.lower_add (Nat.not_lt.mp hfull)
    have hsorted :=
      h.exact.sorted.sublist (List.dropWhile_sublist fun id => decide (id ≤ a.ctx.lowerId))
    refine ⟨_, rfl, ⟨⟨hsorted, ?_⟩, ?_, h.lower, h.keep, ?_⟩, rfl, ?_, ?_, ?_, ?_⟩
    · intro id
      show id ∈ List.dropWhile _ _ ↔
        ∃ file ∈ (if id ∈ List.takeWhile _ _ then none else a.dir id), _
      rw [hmem]
      split
      · next hid => exact ⟨fun hlt => absurd hlt.2 (BitVec.not_lt.mpr (hold id hid).2),
          by rintro ⟨_, ⟨⟩, _⟩⟩
      · next hid =>
        refine ⟨fun hid => (h.exact.mem id).mp hid.1, fun hcomplete => ?_⟩
        have hin := (h.exact.mem id).mpr hcomplete
        refine ⟨hin, ?_⟩
        rw [← hsplit] at hin
        exact lt_of_mem_dropWhile h.exact.sorted ((List.mem_append.mp hin).resolve_left hid)
    · exact fun id hid => h.upper id ((hmem id).mp hid).1
    · intro id file hfile
      dsimp only at hfile
      split at hfile
      · cases hfile
      · exact h.part id file hfile
    · have hlen :=
        length_le_of_between (m := a.ctx.lowerId.toNat + 1) (n := a.ctx.upperId.toNat + 1)
        (nodup_of_sorted hsorted)
        (fun id hid => ⟨((hmem id).mp hid).2, Nat.lt_succ_of_le (h.upper id ((hmem id).mp hid).1)⟩)
      have hpos := (signExtend_keep h.keep).2.1
      dsimp only
      omega
    · exact fun id hid => ((hmem id).mp hid).1
    · exact fun id hid j hj hle => (hmem id).mpr ⟨hid, Nat.lt_of_lt_of_le ((hmem j).mp hj).2 hle⟩
    · exact if_neg fun hid => next_notMem h hleft (hold _ hid).1

theorem Inv.spoil (h : a.Inv) (hleft : a.ctx.upperId.toNat + 2 < 2 ^ 64) (data : List Byte) :
    Inv { a with dir := Function.update a.dir (a.ctx.upperId + 1) (some ⟨data, false⟩) } := by
  refine ⟨⟨h.exact.sorted, fun id => ?_⟩, h.upper, h.lower, h.keep, fun id file hfile hpart => ?_⟩
  · show id ∈ a.ctx.ids ↔ ∃ file ∈ Function.update _ _ _ id, _
    by_cases hid : id = a.ctx.upperId + 1
    · subst hid
      rw [Function.update_self]
      exact ⟨fun hmem => absurd hmem (next_notMem h hleft), by rintro ⟨_, ⟨⟩, hwhole⟩; cases hwhole⟩
    · rw [Function.update_of_ne hid]
      exact h.exact.mem id
  · by_cases hid : id = a.ctx.upperId + 1
    · exact hid
    · dsimp only at hfile
      rw [Function.update_of_ne hid] at hfile
      exact h.part id file hfile hpart

theorem Inv.push (h : a.Inv) (hleft : a.ctx.upperId.toNat + 2 < 2 ^ 64) (data : List Byte) :
    (a.push data).Inv := by
  have hup : ∀ id ∈ a.ctx.ids, id < a.ctx.upperId + 1 := by
    intro id hid
    have hle := h.upper id hid
    bv_omega
  refine ⟨⟨?_, fun id => ?_⟩, fun id hid => ?_, ?_, h.keep, fun id file hfile hpart => ?_⟩
  · refine List.pairwise_append.mpr ⟨h.exact.sorted, List.pairwise_singleton ..,
      fun x hx y hy => ?_⟩
    rw [List.mem_singleton.mp hy]
    exact hup x hx
  · show id ∈ a.ctx.ids ++ [_] ↔ ∃ file ∈ Function.update _ _ _ id, _
    rw [List.mem_append, List.mem_singleton]
    by_cases hid : id = a.ctx.upperId + 1
    · subst hid
      rw [Function.update_self]
      exact ⟨fun _ => ⟨_, rfl, rfl⟩, fun _ => Or.inr rfl⟩
    · rw [Function.update_of_ne hid, or_iff_left hid]
      exact h.exact.mem id
  · rcases List.mem_append.mp hid with hid | hid
    · exact BitVec.le_of_lt (hup id hid)
    · exact List.mem_singleton.mp hid ▸ BitVec.le_refl _
  · show a.ctx.lowerId + 1 = a.ctx.upperId + 1 - a.ctx.nrToKeep.signExtend 64 + 1
    rw [h.lower]
    abel
  · change Function.update _ _ _ id = _ at hfile
    by_cases hid : id = a.ctx.upperId + 1
    · rw [hid, Function.update_self] at hfile
      cases hfile
      cases hpart
    · rw [Function.update_of_ne hid] at hfile
      exact absurd (h.part id file hfile hpart) hid

theorem retained_failed {b : Archive} (hb : b.Exact) (hc : ¬ c.Works a) : Retained c a (-1) b where
  exact := hb
  works hw := absurd hw hc
  count hne := absurd rfl hne
  newest hne := absurd rfl hne
  data hne := absurd rfl hne

theorem overwrite_eq {file : Option ArchiveFile} {data : List Byte} :
    overwrite file data = data ↔ ∀ f ∈ file, f.data.length ≤ data.length := by
  unfold overwrite
  rw [eq_comm, List.self_eq_append_right, List.drop_eq_nil_iff]
  cases file with
  | none => exact ⟨nofun, fun _ => Nat.zero_le _⟩
  | some f => exact ⟨fun hle g hg => Option.some_inj.mp hg ▸ hle, fun h => h f rfl⟩

theorem deleteOldArchives_fails {i : Nat} (hi : i < a.nrOld) (hbad : c.unlinkOk i = false) :
    LibTpa.deleteOldArchives c.unlinkOk a =
      (false, { a with dir := (deleteLoop a.ctx.lowerId c.unlinkOk a.ctx.ids 0 a.dir).2.2 }) ∧
    ∃ x ids, a.ctx.ids = x :: ids ∧ x ≤ a.ctx.lowerId := by
  unfold nrOld at hi
  split at hi
  · exact absurd hi (Nat.not_lt_zero i)
  next hfull =>
  have hfail : (deleteLoop a.ctx.lowerId c.unlinkOk a.ctx.ids 0 a.dir).1 = false :=
    deleteLoop_fails hi (by rwa [Nat.zero_add])
  refine ⟨?_, ?_⟩
  · unfold LibTpa.deleteOldArchives
    dsimp only
    rw [if_neg hfull, hfail]
    rfl
  · cases hids : a.ctx.ids with
    | nil =>
      rw [hids] at hi
      exact absurd hi (Nat.not_lt_zero i)
    | cons x ids =>
      refine ⟨x, ids, rfl, ?_⟩
      by_contra hx
      rw [hids, List.takeWhile_cons, if_neg fun hle => hx (of_decide_eq_true hle)] at hi
      exact absurd hi (Nat.not_lt_zero i)

/-- A deletion that fails at the first file changes nothing; one that fails later leaves an id
without a file. -/
theorem Inv.delete_fails (h : a.Inv) {i : Nat} (hi : i < a.nrOld) (hbad : c.unlinkOk i = false) :
    (c.unlinkOk 0 = false → LibTpa.archiveRaw c a = (-1, a)) ∧
      (c.unlinkOk 0 = true → ¬ (LibTpa.archiveRaw c a).2.Exact) := by
  obtain ⟨hdel, x, ids, hids, hx⟩ := deleteOldArchives_fails hi hbad
  have hmem : x ∈ a.ctx.ids := hids ▸ List.mem_cons_self ..
  have hraw : LibTpa.archiveRaw c a =
      (-1, { a with dir := (deleteLoop a.ctx.lowerId c.unlinkOk a.ctx.ids 0 a.dir).2.2 }) := by
    unfold LibTpa.archiveRaw
    rw [hdel]
    rfl
  rw [hraw]
  constructor
  · intro h0
    rw [hids, deleteLoop, if_neg (BitVec.not_lt.mpr hx), if_pos (Or.inl h0)]
  · intro h0 hexact
    apply hexact.dir_ne hmem
    have hgo : ¬ (c.unlinkOk 0 = false ∨ a.dir x = none) := by
      simp [h0, h.exact.dir_ne hmem]
    rw [hids, deleteLoop, if_neg (BitVec.not_lt.mpr hx), if_neg hgo]
    exact deleteLoop_none (Function.update_self ..)

theorem Pruned.archiveWrite {b : Archive} (h : a.Inv) (hp : Pruned a b)
    (hleft : a.ctx.upperId.toNat + 2 < 2 ^ 64) (hok : ∀ i < a.nrOld, c.unlinkOk i = true) :
    (Retained c a (LibTpa.archiveWrite c b).1 (LibTpa.archiveWrite c b).2 ↔ Careful a (.raw c)) ∧
      (LibTpa.archiveWrite c b).2.Inv := by
  have hupper : b.ctx.upperId = a.ctx.upperId := by rw [hp.ctx]
  have hleft' : b.ctx.upperId.toNat + 2 < 2 ^ 64 := hupper ▸ hleft
  have hnext : b.dir (b.ctx.upperId + 1) = a.dir (a.ctx.upperId + 1) := hupper ▸ hp.next
  have hfailed : ∀ b' : Archive, b'.Inv → ¬ c.Works a →
      (Retained c a (-1) b' ↔ Careful a (.raw c)) ∧ b'.Inv := fun b' hb' hw =>
    ⟨⟨fun _ => ⟨fun _ => hok, fun hworks => absurd hworks hw⟩,
      fun _ => retained_failed hb'.exact hw⟩, hb'⟩
  unfold LibTpa.archiveWrite
  dsimp only
  split
  · next hopen => exact hfailed b hp.inv fun hw => Bool.false_ne_true (hopen.symm.trans hw.2.1)
  next hopen =>
  split
  · next hwrite => exact hfailed _ (hp.inv.spoil hleft' _) fun hw => hwrite hw.2.2
  next hwrite =>
  have hwrite : c.written = some c.data.length := not_not.mp hwrite
  have hworks : c.Works a := ⟨hok, by simpa using hopen, hwrite⟩
  rw [hwrite, Option.getD_some, List.take_length]
  have hinv := hp.inv.push hleft' (overwrite (b.dir (b.ctx.upperId + 1)) c.data)
  have hmax : b.ctx.upperId + 1 ≠ -1 := by bv_omega
  have hnew : (b.push (overwrite (b.dir (b.ctx.upperId + 1)) c.data)).dir (b.ctx.upperId + 1) =
      some ⟨overwrite (b.dir (b.ctx.upperId + 1)) c.data, true⟩ := Function.update_self ..
  refine ⟨⟨fun hr => ⟨fun _ => hok, fun _ => ?_⟩, fun hcareful => ?_⟩, hinv⟩
  · have hdata := hnew.symm.trans (hr.data hmax)
    rw [Option.some_inj, ArchiveFile.mk.injEq, hnext] at hdata
    exact overwrite_eq.mp hdata.1
  · have hdata := overwrite_eq.mpr (hcareful.2 hworks)
    rw [← hnext] at hdata
    rw [hdata] at hinv hnew ⊢
    have hmem : ∀ i, (b.push c.data).Complete i ↔ i ∈ b.ctx.ids ∨ i = b.ctx.upperId + 1 := by
      intro i
      rw [← hinv.exact.mem, ← List.mem_singleton]
      exact List.mem_append
    refine ⟨hinv.exact, fun _ => hmax, fun _ => ⟨?_, fun i hi => ?_⟩,
      fun _ => ⟨?_, fun i hi j hj hle => ?_⟩, fun _ => hnew⟩
    · show (b.ctx.ids ++ [_]).length ≤ b.ctx.nrToKeep.toNat
      rw [List.length_append, List.length_singleton]
      exact hp.room
    · rw [hinv.exact.mem, hmem]
      by_cases hid : i = b.ctx.upperId + 1
      · exact Or.inr hid
      · have hdir : (b.push c.data).dir i = b.dir i := Function.update_of_ne hid ..
        rw [hdir] at hi
        obtain ⟨file, hfile⟩ := Option.ne_none_iff_exists'.mp hi
        have hwhole : file.whole ≠ false := fun hpart => hid (hp.inv.part i file hfile hpart)
        exact Or.inl ((hp.inv.exact.mem i).mpr ⟨file, hfile, by simpa using hwhole⟩)
    · bv_omega
    · rw [hmem] at hj ⊢
      refine hi.imp_left fun hi => ?_
      have hin := (h.exact.mem i).mpr hi
      rcases hj with hj | rfl
      · exact hp.up i hin j hj hle
      · have hlast := h.upper i hin
        exact absurd hle (by bv_omega)

theorem Inv.archiveRaw (h : a.Inv) (hleft : a.ctx.upperId.toNat + 2 < 2 ^ 64) :
    (Retained c a (LibTpa.archiveRaw c a).1 (LibTpa.archiveRaw c a).2 ↔ Careful a (.raw c)) ∧
      (Careful a (.raw c) → (LibTpa.archiveRaw c a).2.Inv) := by
  by_cases hok : ∀ i < a.nrOld, c.unlinkOk i = true
  · obtain ⟨b, hb, hp⟩ := h.deleteOldArchives hleft hok
    have hraw : LibTpa.archiveRaw c a = LibTpa.archiveWrite c b := by
      unfold LibTpa.archiveRaw
      rw [hb]
      rfl
    obtain ⟨hiff, hinv⟩ := hp.archiveWrite h hleft hok
    rw [hraw]
    exact ⟨hiff, fun _ => hinv⟩
  · have hw : ¬ c.Works a := fun hw => hok hw.1
    push Not at hok
    obtain ⟨i, hi, hbad⟩ := hok
    obtain ⟨hfirst, hlater⟩ := h.delete_fails hi (Bool.eq_false_of_not_eq_true hbad)
    cases h0 : c.unlinkOk 0 with
    | false =>
      rw [hfirst h0]
      exact ⟨⟨fun _ => ⟨fun h1 => absurd (h0.symm.trans h1) Bool.false_ne_true,
        fun hworks => absurd hworks hw⟩,
        fun _ => retained_failed h.exact hw⟩, fun _ => h⟩
    | true =>
      have hcareless : ¬ Careful a (.raw c) := fun hcareful => hbad (hcareful.1 h0 i hi)
      exact ⟨iff_of_false (fun hr => hlater h0 hr.exact) hcareless, fun hc => absurd hc hcareless⟩

end Archive

theorem readEntries_spec (ctx : ArchiveCtx) (entries : List (Option ArchiveId))
    (h : ∀ i ∈ ctx.ids, i ≤ ctx.upperId) :
    (entries.foldl readEntry ctx).ids = ctx.ids ++ entries.filterMap id ∧
      (entries.foldl readEntry ctx).nrToKeep = ctx.nrToKeep ∧
      ∀ i ∈ (entries.foldl readEntry ctx).ids, i ≤ (entries.foldl readEntry ctx).upperId := by
  induction entries generalizing ctx with
  | nil => exact ⟨(List.append_nil _).symm, rfl, h⟩
  | cons e entries ih =>
    cases e with
    | none => exact ih ctx h
    | some x =>
      have hnext : ∀ i ∈ (readEntry ctx (some x)).ids, i ≤ (readEntry ctx (some x)).upperId := by
        intro i hi
        show i ≤ if ctx.upperId < x then x else ctx.upperId
        rcases List.mem_append.mp hi with hi | hi
        · have hle := h i hi
          split <;> bv_omega
        · rw [List.mem_singleton.mp hi]
          split <;> bv_omega
      obtain ⟨h1, h2, h3⟩ := ih _ hnext
      refine ⟨?_, h2, h3⟩
      rw [List.foldl_cons, h1]
      exact List.append_assoc ..

theorem archiveCtxInit_inv {dir : ArchiveDir} {entries : List (Option ArchiveId)} {keep : BitVec 32}
    (hdir : dir.Lists entries) (hkeep : 1 ≤ keep.toInt) :
    (archiveCtxInit dir entries keep).Inv := by
  obtain ⟨hids, hk, hupper⟩ := readEntries_spec { nrToKeep := keep } entries nofun
  rw [List.nil_append] at hids
  have hle : ∀ x y : ArchiveId, decide (sortId x y ≤ 0) = true ↔ x ≤ y := by
    intro x y
    rw [decide_eq_true_iff, sortId]
    split
    · next hlt => exact iff_of_false (by decide) (BitVec.not_le.mpr hlt)
    · next hlt => exact iff_of_true (by decide) (BitVec.not_lt.mp hlt)
  have hperm := List.mergeSort_perm (entries.filterMap id) fun x y => decide (sortId x y ≤ 0)
  have hsorted :
    ((entries.filterMap id).mergeSort fun x y => decide (sortId x y ≤ 0)).Pairwise (· < ·) := by
    have hpair := List.pairwise_mergeSort
      (fun x y z hxy hyz => (hle x z).mpr (BitVec.le_trans ((hle x y).mp hxy) ((hle y z).mp hyz)))
      (fun x y => by simpa [hle] using BitVec.le_total x y) (entries.filterMap id)
    refine (hpair.and (hperm.nodup_iff.mpr hdir.nodup)).imp ?_
    rintro x y ⟨hxy, hne⟩
    exact BitVec.lt_of_le_ne ((hle x y).mp hxy) hne
  have hmem : ∀ i, i ∈ (archiveCtxInit dir entries keep).ctx.ids ↔ some i ∈ entries := by
    intro i
    show i ∈ List.mergeSort _ _ ↔ _
    rw [hids, hperm.mem_iff]
    simp
  refine ⟨⟨?_, fun i => ?_⟩, fun i hi => ?_, ?_, ?_, fun i file hfile hpart => ?_⟩
  · show (List.mergeSort _ _).Pairwise _
    rw [hids]
    exact hsorted
  · rw [hmem, hdir.mem, Option.ne_none_iff_exists']
    exact ⟨fun ⟨file, hfile⟩ => ⟨file, hfile, hdir.whole i file hfile⟩,
      fun ⟨file, hfile, _⟩ => ⟨file, hfile⟩⟩
  · refine hupper i ?_
    rw [hids]
    simpa using (hmem i).mp hi
  · rfl
  · show 1 ≤ (entries.foldl readEntry { nrToKeep := keep }).nrToKeep.toInt
    rw [hk]
    exact hkeep
  · exact absurd hpart (by rw [hdir.whole i file hfile]; decide)

/-- Whatever file operations fail, every call keeps the newest archives and the list of their ids,
exactly in the runs in which no deletion breaks off half way and no longer remnant of a new file is
overwritten. -/
theorem archive_retention_iff {dir : ArchiveDir} {entries : List (Option ArchiveId)}
    {keep : BitVec 32} {ops : List ArchiveOp} (hdir : dir.Lists entries) (hkeep : 1 ≤ keep.toInt)
    (hops : Run.Admitted archiveStep InIds (archiveCtxInit dir entries keep) ops) :
    Run.Admitted archiveStep RetainedStep (archiveCtxInit dir entries keep) ops ↔
      Run.Admitted archiveStep Careful (archiveCtxInit dir entries keep) ops := by
  refine Run.admitted_iff (I := Archive.Inv) ?_ ?_ (archiveCtxInit_inv hdir hkeep) hops
  · intro a op h hin
    cases op with
    | raw c => exact (h.archiveRaw hin).1
    | setNrToKeep n => exact iff_of_true ⟨h.exact.sorted, h.exact.mem⟩ trivial
  · intro a op h hin hcareful
    cases op with
    | raw c => exact (h.archiveRaw hin).2 hcareful
    | setNrToKeep n => exact ⟨⟨h.exact.sorted, h.exact.mem⟩, h.upper, rfl, hin, h.part⟩

theorem noArchives_lists : ArchiveDir.Lists (fun _ => none) [none] := ⟨by decide, by simp, nofun⟩

theorem archive_retention_newest :
    Run.Admitted archiveStep RetainedStep (archiveCtxInit (fun _ => none) [none] 1)
      [.raw { data := [7] }, .raw { data := [8], unlinkOk := fun _ => false },
        .raw { data := [8, 9] }] :=
  (archive_retention_iff noArchives_lists (by decide) (by decide +kernel)).mpr (by decide +kernel)

/-- One archive is to be kept instead of two, and the deletion breaks off behind the first: no call
archives anything any more. And a new archive of one byte goes over the remnant of two bytes. -/
theorem archive_breaks_off :
    (∃ a, archiveRaw { data := [7], unlinkOk := fun i => i == 0 }
        (Run.exec archiveStep (archiveCtxInit (fun _ => none) [] 2)
          [.raw { data := [5] }, .raw { data := [6] }, .setNrToKeep 1]) = (-1, a) ∧
      a.ctx.ids = [1, 2] ∧ a.dir 1 = none ∧ ∀ data, (archiveRaw { data := data } a).1 = -1) ∧
    (archiveRaw { data := [5] } (archiveRaw { data := [7, 8, 9], written := some 2 }
      (archiveCtxInit (fun _ => none) [] 1)).2).2.dir 1 = some ⟨[5, 8], true⟩ := by
  have hinit : archiveCtxInit (fun _ => none) [] 2 = ⟨⟨2, 0, -1, []⟩, fun _ => none⟩ :=
    congrArg (fun ids => Archive.mk ⟨2, 0, -1, ids⟩ fun _ => none) List.mergeSort_nil
  rw [hinit]
  exact ⟨⟨_, rfl, rfl, rfl, fun _ => rfl⟩, by decide +kernel⟩

end LibTpa
