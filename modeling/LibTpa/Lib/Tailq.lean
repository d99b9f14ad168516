/- LibTpa/Lib/Tailq
   digest: Tail queues with intrusive links, as the lists they thread. -/

import Mathlib.Data.List.Nodup
import Mathlib.Logic.Function.Basic

/-!
The heads `H` and the entries `N` of tail queues share one memory. An entry has
a `next` link and a `prev` word with the address of the link that points to it.
The owner of an entry may keep a number in that word while the entry is in no
queue.
-/

set_option autoImplicit false
set_option linter.unusedSectionVars false

namespace LibTpa.Lib.Tailq

inductive Place (H N : Type*)
  | head (h : H)
  | entry (n : N)
  deriving DecidableEq

/-- A `prev` word. The number zero is the null pointer. -/
inductive Word (H N : Type*)
  | num (k : Nat)
  | link (p : Place H N)
  deriving DecidableEq

structure Mem (H N : Type*) where
  first : H → Option N
  last : H → Place H N
  next : N → Option N
  prev : N → Word H N

variable {H N : Type*} [DecidableEq H] [DecidableEq N]

namespace Mem

def load (m : Mem H N) : Place H N → Option N
  | .head h => m.first h
  | .entry n => m.next n

def store (m : Mem H N) (p : Place H N) (v : Option N) : Mem H N :=
  match p with
  | .head h => { m with first := Function.update m.first h v }
  | .entry n => { m with next := Function.update m.next n v }

def setPrev (m : Mem H N) (n : N) (w : Word H N) : Mem H N :=
  { m with prev := Function.update m.prev n w }

def setLast (m : Mem H N) (h : H) (p : Place H N) : Mem H N :=
  { m with last := Function.update m.last h p }

def insertTail (m : Mem H N) (h : H) (n : N) : Mem H N :=
  (((m.store (.entry n) none).setPrev n (.link (m.last h))).store (m.last h) (some n)).setLast h
    (.entry n)

/-- `TAILQ_REMOVE`. Only an entry that some link points to is ever removed. -/
def remove (m : Mem H N) (h : H) (n : N) : Mem H N :=
  match m.prev n with
  | .num _ => m
  | .link p =>
    match m.next n with
    | some x => (m.setPrev x (.link p)).store p (some x)
    | none => (m.setLast h p).store p none

@[simp] theorem load_store_self (m : Mem H N) (p : Place H N) (v : Option N) :
    (m.store p v).load p = v := by
  cases p <;> simp [store, load]

theorem load_store_ne (m : Mem H N) {p q : Place H N} (v : Option N) (h : q ≠ p) :
    (m.store p v).load q = m.load q := by
  cases p <;> cases q <;> simp_all [store, load]

@[simp] theorem load_setPrev (m : Mem H N) (n : N) (w : Word H N) (p : Place H N) :
    (m.setPrev n w).load p = m.load p := by
  cases p <;> rfl

@[simp] theorem load_setLast (m : Mem H N) (h : H) (q p : Place H N) :
    (m.setLast h q).load p = m.load p := by
  cases p <;> rfl

@[simp] theorem prev_store (m : Mem H N) (p : Place H N) (v : Option N) :
    (m.store p v).prev = m.prev := by
  cases p <;> rfl

@[simp] theorem last_store (m : Mem H N) (p : Place H N) (v : Option N) :
    (m.store p v).last = m.last := by
  cases p <;> rfl

@[simp] theorem prev_setLast (m : Mem H N) (h : H) (p : Place H N) :
    (m.setLast h p).prev = m.prev := rfl

@[simp] theorem last_setPrev (m : Mem H N) (n : N) (w : Word H N) : (m.setPrev n w).last = m.last :=
  rfl

@[simp] theorem prev_setPrev_self (m : Mem H N) (n : N) (w : Word H N) :
    (m.setPrev n w).prev n = w :=
  Function.update_self ..

theorem prev_setPrev_ne (m : Mem H N) {n x : N} (w : Word H N) (h : x ≠ n) :
    (m.setPrev n w).prev x = m.prev x := Function.update_of_ne h ..

end Mem

variable {m m' : Mem H N} {h : H} {p q : Place H N} {n : N} {l l' : List N}

/-- The links from place `p` on thread the entries of `l`; the link behind the
last one is stored at `q`. -/
def Seg (m : Mem H N) : Place H N → List N → Place H N → Prop
  | p, [], q => p = q
  | p, n :: l, q => m.load p = some n ∧ m.prev n = .link p ∧ Seg m (.entry n) l q

def places (p : Place H N) (l : List N) : List (Place H N) := p :: l.map .entry

theorem Seg.mem_places (h : Seg m p l q) : q ∈ places p l := by
  induction l generalizing p with
  | nil => simp [places, show p = q from h]
  | cons n l ih => exact List.mem_cons_of_mem _ (ih h.2.2)

theorem seg_append {b : List N} : Seg m p (l ++ b) q ↔ ∃ r, Seg m p l r ∧ Seg m r b q := by
  induction l generalizing p with
  | nil => simp [Seg]
  | cons n l ih =>
    simp only [List.cons_append, Seg, ih]
    constructor
    · rintro ⟨h1, h2, r, h3, h4⟩
      exact ⟨r, ⟨h1, h2, h3⟩, h4⟩
    · rintro ⟨r, ⟨h1, h2, h3⟩, h4⟩
      exact ⟨h1, h2, r, h3, h4⟩

/-- A segment stays while its links and back links are the same; the last link is
not part of it. -/
theorem Seg.congr (h : Seg m p l q) (hn : (places p l).Nodup)
    (hl : ∀ r ∈ places p l, r ≠ q → m'.load r = m.load r) (hp : ∀ n ∈ l, m'.prev n = m.prev n) :
    Seg m' p l q := by
  induction l generalizing p with
  | nil => exact h
  | cons n l ih =>
    obtain ⟨h1, h2, h3⟩ := h
    obtain ⟨hnot, hn'⟩ := List.nodup_cons.mp hn
    have hne : p ≠ q := by
      rintro rfl
      exact hnot h3.mem_places
    refine ⟨(hl p (by simp [places]) hne).trans h1, (hp n (by simp)).trans h2, ?_⟩
    apply ih h3 hn'
    · intro r hr
      exact hl r (List.mem_cons_of_mem _ hr)
    · intro x hx
      exact hp x (List.mem_cons_of_mem _ hx)

structure Holds (m : Mem H N) (h : H) (l : List N) : Prop where
  nodup : l.Nodup
  seg : Seg m (.head h) l (m.last h)
  close : m.load (m.last h) = none

theorem places_nodup (hl : l.Nodup) : (places (.head h) l).Nodup := by
  refine List.nodup_cons.mpr ⟨by simp, hl.map ?_⟩
  intro a b hab
  cases hab
  rfl

theorem Holds.first (hh : Holds m h l) : m.first h = l.head? := by
  cases l with
  | nil =>
    have hp : Place.head h = m.last h := hh.seg
    have hc := hh.close
    rw [← hp] at hc
    exact hc
  | cons n l => exact hh.seg.1

theorem Holds.prev_link (hh : Holds m h l) (hn : n ∈ l) : ∃ p, m.prev n = .link p := by
  obtain ⟨a, b, rfl⟩ := List.append_of_mem hn
  obtain ⟨r, -, h2⟩ := seg_append.mp hh.seg
  exact ⟨r, h2.2.1⟩

theorem Holds.congr (hh : Holds m h l) (hlast : m'.last h = m.last h)
    (hl : ∀ r ∈ places (.head h) l, m'.load r = m.load r) (hp : ∀ n ∈ l, m'.prev n = m.prev n) :
    Holds m' h l := by
  refine ⟨hh.nodup, ?_, ?_⟩
  · rw [hlast]
    exact hh.seg.congr (places_nodup hh.nodup) (fun r hr _ => hl r hr) hp
  · rw [hlast, hl _ hh.seg.mem_places]
    exact hh.close

theorem Holds.last_place (hh : Holds m h l) :
    m.last h = .head h ∨ ∃ x ∈ l, m.last h = .entry x := by
  have hmem := hh.seg.mem_places
  simp only [places, List.mem_cons, List.mem_map] at hmem
  rcases hmem with hm | ⟨x, hx, hm⟩
  · exact .inl hm
  · exact .inr ⟨x, hx, hm.symm⟩

theorem Holds.last_ne (hh : Holds m h l) (hn : n ∉ l) : m.last h ≠ .entry n := by
  rcases hh.last_place with hm | ⟨x, hx, hm⟩
  · rw [hm]
    rintro ⟨⟩
  · rw [hm]
    rintro ⟨⟩
    exact hn hx

theorem Mem.prev_insertTail_ne (m : Mem H N) (h : H) {x : N} (hx : x ≠ n) :
    (m.insertTail h n).prev x = m.prev x := by
  simp [Mem.insertTail, Mem.prev_setPrev_ne _ _ hx]

theorem Holds.insertTail (hh : Holds m h l) (hn : n ∉ l) :
    Holds (m.insertTail h n) h (l ++ [n]) := by
  have hne := hh.last_ne hn
  have hlast : (m.insertTail h n).last h = .entry n := by simp [Mem.insertTail, Mem.setLast]
  have hload : ∀ r, r ≠ .entry n → r ≠ m.last h → (m.insertTail h n).load r = m.load r := by
    intro r h1 h2
    rw [Mem.insertTail, Mem.load_setLast, Mem.load_store_ne _ _ h2, Mem.load_setPrev,
      Mem.load_store_ne _ _ h1]
  refine ⟨List.nodup_append.mpr ⟨hh.nodup, by simp, ?_⟩, ?_, ?_⟩
  · rintro a ha b hb rfl
    rw [List.mem_singleton] at hb
    exact hn (hb ▸ ha)
  · rw [hlast]
    refine seg_append.mpr ⟨m.last h, ?_, ?_, ?_, rfl⟩
    · refine hh.seg.congr (places_nodup hh.nodup) (fun r hr hrq => hload r ?_ hrq) fun x hx =>
        m.prev_insertTail_ne h ?_
      · rintro rfl
        simp only [places, List.mem_cons, List.mem_map, reduceCtorEq, false_or, Place.entry.injEq,
          exists_eq_right] at hr
        exact hn hr
      · rintro rfl
        exact hn hx
    · simp [Mem.insertTail]
    · simp [Mem.insertTail]
  · rw [hlast, Mem.insertTail, Mem.load_setLast, Mem.load_store_ne _ _ hne.symm, Mem.load_setPrev,
      Mem.load_store_self]

theorem mem_places_entry : Place.entry n ∈ places (.head h) l ↔ n ∈ l := by
  simp [places]

theorem Holds.around {a b : List N} (hh : Holds m h (a ++ n :: b)) :
    ∃ r ∈ places (.head h) a, Seg m (.head h) a r ∧ m.prev n = .link r ∧ m.next n = b.head? ∧
      Seg m (.entry n) b (m.last h) := by
  obtain ⟨r, h1, h2, h3, h4⟩ := seg_append.mp hh.seg
  refine ⟨r, h1.mem_places, h1, h3, ?_, h4⟩
  cases b with
  | nil =>
    have hc := hh.close
    rw [← show Place.entry n = m.last h from h4] at hc
    exact hc
  | cons x b => exact h4.1

theorem Holds.remove (hh : Holds m h l) (hn : n ∈ l) : Holds (m.remove h n) h (l.erase n) := by
  obtain ⟨a, b, rfl⟩ := List.append_of_mem hn
  obtain ⟨r, hr, hseg, hprev, hnext, hrest⟩ := hh.around
  have hnd := List.nodup_append.mp hh.nodup
  have hna : n ∉ a := fun ha => hnd.2.2 n ha n (by simp) rfl
  have herase : (a ++ n :: b).erase n = a ++ b := by
    rw [List.erase_append_right _ hna, List.erase_cons_head]
  have hnodup : (a ++ b).Nodup := herase ▸ hh.nodup.erase n
  have hra : ∀ x ∈ b, r ≠ .entry x := by
    rintro x hx rfl
    exact (List.nodup_append.mp hnodup).2.2 x (mem_places_entry.mp hr) x hx rfl
  rw [herase, Mem.remove, hprev]
  dsimp only
  cases b with
  | nil =>
    rw [hnext]
    refine ⟨hnodup, ?_, ?_⟩
    · rw [List.append_nil]
      have hlast : ((m.setLast h r).store r none).last h = r := by simp [Mem.setLast]
      rw [List.head?_nil, hlast]
      refine hseg.congr (places_nodup hnd.1) (fun x _ hx => ?_) fun x _ => by simp
      rw [Mem.load_store_ne _ _ hx, Mem.load_setLast]
    · simp [Mem.setLast]
  | cons x b =>
    rw [hnext]
    have hxa : x ∉ a := fun ha => (List.nodup_append.mp hnodup).2.2 x ha x (by simp) rfl
    have hxb : (x :: b).Nodup := (List.nodup_append.mp hnodup).2.1
    have hload : ∀ y, y ≠ r → ((m.setPrev x (.link r)).store r (some x)).load y = m.load y := by
      intro y hy
      rw [Mem.load_store_ne _ _ hy, Mem.load_setPrev]
    have hlast : ((m.setPrev x (.link r)).store r (some x)).last h = m.last h := by simp
    have htail : Seg m (.entry x) b (m.last h) := hrest.2.2
    have hpl : ∀ y ∈ places (H := H) (.entry x) b, y ≠ r := by
      intro y hy
      rw [places, ← List.map_cons (f := Place.entry)] at hy
      obtain ⟨z, hz, rfl⟩ := List.mem_map.mp hy
      exact (hra z hz).symm
    refine ⟨hnodup, ?_, ?_⟩
    · rw [List.head?_cons, hlast]
      refine seg_append.mpr ⟨r, ?_, ?_, ?_, ?_⟩
      · refine hseg.congr (places_nodup hnd.1) (fun y _ hy => hload y hy) fun y hy => ?_
        have hyx : y ≠ x := by
          rintro rfl
          exact hxa hy
        simp [Mem.prev_setPrev_ne _ _ hyx]
      · simp
      · simp
      · refine htail.congr ?_ (fun y hy _ => hload y (hpl y hy)) fun y hy => ?_
        · rw [places, ← List.map_cons (f := Place.entry)]
          refine hxb.map ?_
          intro u v huv
          cases huv
          rfl
        · have hyx : y ≠ x := by
            rintro rfl
            exact (List.nodup_cons.mp hxb).1 hy
          simp [Mem.prev_setPrev_ne _ _ hyx]
    · rw [List.head?_cons, hlast, hload _ (hpl _ htail.mem_places)]
      exact hh.close

theorem Holds.remove_prev (hh : Holds m h l) (hn : n ∈ l) {x : N} (hx : x ∉ l) :
    (m.remove h n).prev x = m.prev x := by
  obtain ⟨a, b, rfl⟩ := List.append_of_mem hn
  obtain ⟨r, -, -, hprev, hnext, -⟩ := hh.around
  rw [Mem.remove, hprev]
  dsimp only
  rw [hnext]
  cases b with
  | nil => simp
  | cons y b =>
    have hxy : x ≠ y := by
      rintro rfl
      exact hx (by simp)
    simp [Mem.prev_setPrev_ne _ _ hxy]

end LibTpa.Lib.Tailq
