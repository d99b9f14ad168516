/- LibTpa/Snd/Stream
   digest: The send queue as a window of the written stream. -/

import LibTpa.Snd.WriteSpec
import LibTpa.Snd.Xmit
import LibTpa.Lib.Stream

/-!
Positions in the stream of written bytes are natural numbers; the sequence
number of position `n` is `base + n`. The live descriptors cut the stream from
position `r` on into blocks; `u` bytes are acknowledged and `m` were sent.
-/

set_option autoImplicit false

namespace LibTpa

open Lib.SerialNumber Lib.Stream

def St.blocks (s : St) : List (List Byte) := s.liveDescs.map TxDesc.data

variable {s s' : St}

theorem SeqChain.get {a b : U32} {l : List TxDesc} (h : SeqChain a l b) {j : Nat} {v : TxDesc}
    (hv : l[j]? = some v) :
    v.seq = a + BitVec.ofNat 32 ((l.take j).map TxDesc.data).flatten.length ∧ v.data ≠ [] := by
  induction l generalizing a j with
  | nil => simp at hv
  | cons d l ih =>
    cases j with
    | zero =>
      cases hv
      exact ⟨by simpa using h.1, h.2.1⟩
    | succ j =>
      obtain ⟨h1, h2⟩ := ih h.2.2 (by simpa using hv)
      refine ⟨?_, h2⟩
      rw [h1]
      simp only [List.take_succ_cons, List.map_cons, List.flatten_cons, List.length_append,
        BitVec.ofNat_add]
      rw [add_assoc]
      rfl

structure SameData (v v' : TxDesc) : Prop where
  data : v'.data = v.data
  seq : v'.seq = v.seq
  sacked : v'.sacked = v.sacked

theorem SameData.refl (v : TxDesc) : SameData v v := ⟨rfl, rfl, rfl⟩

theorem SameData.trans {v v' v'' : TxDesc} (h : SameData v v') (h' : SameData v' v'') :
    SameData v v'' := ⟨h'.data.trans h.data, h'.seq.trans h.seq, h'.sacked.trans h.sacked⟩

/-- The send queue and its bytes are untouched; stamps of descriptors may have changed. -/
structure TxKeep (s s' : St) : Prop where
  snd : s'.tsock.snd = s.tsock.snd
  free : s'.worker.tx.free = s.worker.tx.free
  desc : ∀ d, SameData (s.desc d) (s'.desc d)

namespace TxKeep

variable {s'' : St}

theorem refl (s : St) : TxKeep s s := ⟨rfl, rfl, fun _ => .refl _⟩

theorem trans (h : TxKeep s s') (h' : TxKeep s' s'') : TxKeep s s'' :=
  ⟨h'.snd.trans h.snd, h'.free.trans h.free, fun d => (h.desc d).trans (h'.desc d)⟩

theorem of_eq (hs : s'.tsock.snd = s.tsock.snd) (ht : s'.worker.tx = s.worker.tx) :
    TxKeep s s' := by
  refine ⟨hs, by rw [ht], fun d => ?_⟩
  rw [St.desc, St.desc, ht]
  exact .refl _

end TxKeep

end LibTpa
