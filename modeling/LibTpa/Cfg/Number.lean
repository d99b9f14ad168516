/- LibTpa/Cfg/Number
   digest: Numeric settings: what is accepted, what is stored, and what is printed. -/

import LibTpa.Tcp.Basic
import Mathlib.Data.List.TakeWhile

set_option autoImplicit false

namespace LibTpa

inductive CfgNumType
  | uint | size | time
  deriving DecidableEq

/-- What `cfg_spec_set_num` reads of a `struct cfg_spec`. A bound is there when its flag is set,
with the value that the table has for it. -/
structure CfgNumSpec where
  type : CfgNumType
  min : Option Int := none
  max : Option Int := none
  powerOf2 : Bool := false

def asInt (x : Int) : Int := x.bmod (2 ^ 32)

def digitsVal (digits : List Char) : Nat := Nat.ofDigitChars 10 digits 0

/-- `strtoul` of decimal digits; without a result the value is out of range. -/
def strtoul (base : List Char) : Option (BitVec 64) :=
  if digitsVal base < 2 ^ 64 then some (BitVec.ofNat 64 (digitsVal base)) else none

/-- `get_base`, with the text behind the digits; without a result `errno` is set. -/
def getBase (val : List Char) : Option (BitVec 64 × List Char) :=
  if 32 ≤ val.length then none
  else (strtoul (val.takeWhile Char.isDigit)).map fun num => (num, val.dropWhile Char.isDigit)

def unitFactor : CfgNumType → List Char → Option Nat
  | .uint, _ => none
  | .size, unit =>
    if unit ∈ [['G'], ['g'], ['G', 'B'], ['g', 'b']] then some (1024 * 1024 * 1024)
    else if unit ∈ [['M'], ['m'], ['M', 'B'], ['m', 'b']] then some (1024 * 1024)
    else if unit ∈ [['K'], ['k'], ['K', 'B'], ['k', 'b']] then some 1024
    else if unit ∈ [['B'], ['b']] then some 1
    else none
  | .time, unit =>
    if unit ∈ [['h'], ['H']] then some (60 * 60 * 1000 * 1000)
    else if unit ∈ [['m'], ['M']] then some (60 * 1000 * 1000)
    else if unit ∈ [['s'], ['S']] then some (1000 * 1000)
    else if unit ∈ [['m', 's'], ['M', 'S']] then some 1000
    else if unit ∈ [['u', 's'], ['U', 'S']] then some 1
    else none

/-- `tpa_parse_num`; without a result `errno` is set. -/
def tpaParseNum (val : List Char) (type : CfgNumType) : Option (BitVec 64) :=
  match getBase val with
  | none => none
  | some (num, unit) =>
    if unit = [] then some num
    else (unitFactor type unit).map fun factor => num * BitVec.ofNat 64 factor

def cfgParseNum (val : List Char) (type : CfgNumType) : BitVec 64 :=
  (tpaParseNum val type).getD (-1)

/-- `cfg_spec_set_num` on the stored value `data`: whether it succeeds, and what is stored then. -/
def cfgSpecSetNum (spec : CfgNumSpec) (data : U32) (val : List Char) : Bool × U32 :=
  let num := cfgParseNum val spec.type
  if num.toInt < 0 then (false, data)
  else if ∃ m ∈ spec.min, num.toInt < asInt m then (false, data)
  else if ∃ m ∈ spec.max, asInt m < num.toInt then (false, data)
  else if spec.powerOf2 = true ∧ num &&& (num - 1) ≠ 0 then (false, data)
  else (true, num.setWidth 32)

def cfgSpecGetNum (type : CfgNumType) (data : U32) : List Char :=
  let num := data.toNat
  match type with
  | .size =>
    if num = 0 then Nat.toDigits 10 num
    else if num % (1024 * 1024 * 1024) = 0
      then Nat.toDigits 10 (num / (1024 * 1024 * 1024)) ++ ['G', 'B']
    else if num % (1024 * 1024) = 0 then Nat.toDigits 10 (num / (1024 * 1024)) ++ ['M', 'B']
    else if num % 1024 = 0 then Nat.toDigits 10 (num / 1024) ++ ['K', 'B']
    else Nat.toDigits 10 num
  | .time =>
    if num = 0 then Nat.toDigits 10 num
    else if num % (60 * 1000 * 1000) = 0 then Nat.toDigits 10 (num / (60 * 1000 * 1000)) ++ ['m']
    else if num % (1000 * 1000) = 0 then Nat.toDigits 10 (num / (1000 * 1000)) ++ ['s']
    else if num % 1000 = 0 then Nat.toDigits 10 (num / 1000) ++ ['m', 's']
    else Nat.toDigits 10 (num / 1000) ++ ['u', 's']
  | .uint => Nat.toDigits 10 num

def scale (type : CfgNumType) (unit : List Char) : Option Nat :=
  if unit = [] then some 1 else unitFactor type unit

/-- The text is digits, possibly none, and behind them nothing or a unit with factor `u`. -/
structure NumText (type : CfgNumType) (val digits : List Char) (u : Nat) : Prop where
  digit : ∀ c ∈ digits, c.isDigit = true
  unit : ∃ unit, val = digits ++ unit ∧ scale type unit = some u

structure ValidSetting (spec : CfgNumSpec) (val : List Char) (v : Nat) : Prop where
  text : ∃ digits u, NumText spec.type val digits u ∧ digits ≠ [] ∧ v = digitsVal digits * u
  fits : v < 2 ^ 32
  min : ∀ m ∈ spec.min, m ≤ v
  max : ∀ m ∈ spec.max, v ≤ m
  powerOf2 : spec.powerOf2 = true → v.isPowerOfTwo

structure Passes (spec : CfgNumSpec) (n : Nat) : Prop where
  sign : n < 2 ^ 63
  min : ∀ m ∈ spec.min, asInt m ≤ n
  max : ∀ m ∈ spec.max, n ≤ asInt m
  powerOf2 : spec.powerOf2 = true → n = 0 ∨ n.isPowerOfTwo

/-- The text is accepted: it fits the buffer of `get_base`, and its number, modulo 2^64, passes. -/
structure Accepted (spec : CfgNumSpec) (val digits : List Char) (u : Nat) : Prop where
  text : NumText spec.type val digits u
  short : val.length < 32
  range : digitsVal digits < 2 ^ 64
  passes : Passes spec (digitsVal digits * u % 2 ^ 64)

/-- A valid setting is not refused: it is short, and no bound is changed by the type `int`. -/
def ValidTaken (spec : CfgNumSpec) (val : List Char) : Prop :=
  ∀ v, ValidSetting spec val v →
    val.length < 32 ∧ (∀ m ∈ spec.min, asInt m ≤ v) ∧ ∀ m ∈ spec.max, v ≤ asInt m

/-- What is accepted has a digit, a 32-bit value that is not a zero for a power of two, and is
inside the bounds of the table. -/
def TakenValid (spec : CfgNumSpec) (val : List Char) : Prop :=
  ∀ digits u, Accepted spec val digits u →
    digits ≠ [] ∧ digitsVal digits * u < 2 ^ 32 ∧
      (spec.powerOf2 = true → digitsVal digits * u ≠ 0) ∧
      (∀ m ∈ spec.min, m ≤ (digitsVal digits * u : Nat)) ∧
        ∀ m ∈ spec.max, (digitsVal digits * u : Nat) ≤ m

variable {spec : CfgNumSpec} {type : CfgNumType} {val digits unit : List Char}
  {u n : Nat} {data : U32}

theorem scale_some (h : scale type unit = some u) : unit.takeWhile Char.isDigit = [] ∧ 0 < u := by
  unfold scale at h
  split at h
  · next hnil =>
    rw [hnil, ← Option.some.inj h]
    exact ⟨rfl, Nat.one_pos⟩
  cases type with
  | uint => cases h
  | size =>
    rw [unitFactor] at h
    split_ifs at h with hmem hmem hmem hmem
    all_goals
      simp only [List.mem_cons, List.not_mem_nil, or_false] at hmem
      rw [← Option.some.inj h]
      rcases hmem with rfl | rfl | rfl | rfl <;> exact ⟨rfl, by decide⟩
  | time =>
    rw [unitFactor] at h
    split_ifs at h with hmem hmem hmem hmem hmem
    all_goals
      simp only [List.mem_cons, List.not_mem_nil, or_false] at hmem
      rw [← Option.some.inj h]
      rcases hmem with rfl | rfl <;> exact ⟨rfl, by decide⟩

theorem scale_dropWhile (h : scale type unit = some u) : unit.dropWhile Char.isDigit = unit := by
  have happ : unit.takeWhile Char.isDigit ++ unit.dropWhile Char.isDigit = unit :=
    List.takeWhile_append_dropWhile
  rw [(scale_some h).1, List.nil_append] at happ
  exact happ

theorem numText_iff : NumText type val digits u ↔
    val.takeWhile Char.isDigit = digits ∧ scale type (val.dropWhile Char.isDigit) = some u := by
  constructor
  · rintro ⟨hdigit, unit, rfl, hscale⟩
    rw [List.takeWhile_append_of_pos hdigit, List.dropWhile_append_of_pos hdigit,
      (scale_some hscale).1, scale_dropWhile hscale, List.append_nil]
    exact ⟨rfl, hscale⟩
  · rintro ⟨rfl, hscale⟩
    exact ⟨fun c hc => List.mem_takeWhile_imp hc, _, List.takeWhile_append_dropWhile.symm, hscale⟩

theorem NumText.unique {digits' : List Char} {u' : Nat} (h : NumText type val digits u)
    (h' : NumText type val digits' u') : digits = digits' ∧ u = u' := by
  rw [numText_iff] at h h'
  exact ⟨h.1.symm.trans h'.1, Option.some.inj (h.2.symm.trans h'.2)⟩

theorem NumText.parse (h : NumText type val digits u) (hshort : val.length < 32)
    (hrange : digitsVal digits < 2 ^ 64) :
    tpaParseNum val type = some (BitVec.ofNat 64 (digitsVal digits * u)) := by
  rw [numText_iff] at h
  obtain ⟨rfl, hscale⟩ := h
  unfold tpaParseNum getBase strtoul
  rw [if_neg (by omega), if_pos hrange]
  unfold scale at hscale
  dsimp only [Option.map_some]
  split
  · next hnil =>
    rw [if_pos hnil] at hscale
    rw [← Option.some.inj hscale, Nat.mul_one]
  · next hnil =>
    rw [if_neg hnil] at hscale
    rw [hscale, Option.map_some, BitVec.ofNat_mul]

theorem tpaParseNum_some {w : BitVec 64} (h : tpaParseNum val type = some w) :
    ∃ digits u, NumText type val digits u ∧ val.length < 32 ∧ digitsVal digits < 2 ^ 64 := by
  unfold tpaParseNum getBase strtoul at h
  split at h
  · cases h
  next num unit hbase =>
  by_cases hlong : 32 ≤ val.length
  · rw [if_pos hlong] at hbase
    cases hbase
  rw [if_neg hlong] at hbase
  by_cases hrange : digitsVal (val.takeWhile Char.isDigit) < 2 ^ 64
  swap
  · rw [if_neg hrange] at hbase
    cases hbase
  rw [if_pos hrange] at hbase
  obtain ⟨-, rfl⟩ := Prod.mk.inj (Option.some.inj hbase)
  obtain ⟨u, hu⟩ : ∃ u, scale type (val.dropWhile Char.isDigit) = some u := by
    unfold scale
    split at h
    · next hnil => exact ⟨1, if_pos hnil⟩
    · next hnil =>
      rw [if_neg hnil]
      obtain ⟨u, hu, -⟩ := Option.map_eq_some_iff.mp h
      exact ⟨u, hu⟩
  exact ⟨_, u, numText_iff.mpr ⟨rfl, hu⟩, by omega, hrange⟩

private theorem toInt_nonneg {w : BitVec 64} (h : w.toNat < 2 ^ 63) : w.toInt = w.toNat := by
  rw [BitVec.toInt_eq_toNat_cond]
  split <;> omega

private theorem and_pred_eq_zero (w : BitVec 64) :
    w &&& (w - 1) = 0 ↔ w.toNat = 0 ∨ w.toNat.isPowerOfTwo := by
  by_cases h0 : w.toNat = 0
  · have hw : w = 0 := BitVec.eq_of_toNat_eq h0
    subst hw
    simp
  · have hpred : (w - 1).toNat = w.toNat - 1 := by bv_omega
    rw [← BitVec.toNat_inj, BitVec.toNat_and, hpred, or_iff_right h0,
      ← Nat.and_sub_one_eq_zero_iff_isPowerOfTwo h0]
    rfl

theorem Passes.set {w : BitVec 64} (hp : Passes spec w.toNat)
    (h : tpaParseNum val spec.type = some w) :
    cfgSpecSetNum spec data val = (true, w.setWidth 32) := by
  have hint := toInt_nonneg hp.sign
  unfold cfgSpecSetNum cfgParseNum
  rw [h, Option.getD_some]
  rw [if_neg, if_neg, if_neg, if_neg]
  · rintro ⟨hpow, hne⟩
    exact hne ((and_pred_eq_zero w).mpr (hp.powerOf2 hpow))
  · rintro ⟨m, hm, hlt⟩
    have := hp.max m hm
    omega
  · rintro ⟨m, hm, hlt⟩
    have := hp.min m hm
    omega
  · omega

theorem cfgSpecSetNum_fails {w : BitVec 64} (h : tpaParseNum val spec.type = some w)
    (hp : ¬ Passes spec w.toNat) : cfgSpecSetNum spec data val = (false, data) := by
  unfold cfgSpecSetNum cfgParseNum
  rw [h, Option.getD_some]
  dsimp only
  split_ifs with hneg hmin hmax hpow
  · rfl
  · rfl
  · rfl
  · rfl
  · have hsign : w.toNat < 2 ^ 63 := by
      have := w.isLt
      rw [BitVec.toInt_eq_toNat_cond] at hneg
      split at hneg <;> omega
    have hint := toInt_nonneg hsign
    rw [hint] at hmin hmax
    push Not at hmin hmax
    refine absurd ⟨hsign, hmin, hmax, fun h2 => (and_pred_eq_zero w).mp ?_⟩ hp
    by_contra hne
    exact hpow ⟨h2, hne⟩

theorem cfgSpecSetNum_none (h : tpaParseNum val spec.type = none) :
    cfgSpecSetNum spec data val = (false, data) := by
  unfold cfgSpecSetNum cfgParseNum
  rw [h, Option.getD_none]
  exact if_pos (by decide)

theorem Accepted.set (h : Accepted spec val digits u) (data : U32) :
    cfgSpecSetNum spec data val = (true, BitVec.ofNat 32 (digitsVal digits * u)) := by
  have hparse := h.text.parse h.short h.range
  have hnat : (BitVec.ofNat 64 (digitsVal digits * u)).toNat = digitsVal digits * u % 2 ^ 64 :=
    BitVec.toNat_ofNat ..
  rw [Passes.set (by rw [hnat]; exact h.passes) hparse]
  congr 1
  apply BitVec.eq_of_toNat_eq
  rw [BitVec.toNat_setWidth, hnat, BitVec.toNat_ofNat]
  omega

theorem accepted_of_ok (h : (cfgSpecSetNum spec data val).1 = true) :
    ∃ digits u, Accepted spec val digits u := by
  cases hparse : tpaParseNum val spec.type with
  | none =>
    rw [cfgSpecSetNum_none hparse] at h
    cases h
  | some w =>
    obtain ⟨digits, u, htext, hshort, hrange⟩ := tpaParseNum_some hparse
    have hw := Option.some.inj (hparse.symm.trans (htext.parse hshort hrange))
    refine ⟨digits, u, htext, hshort, hrange, ?_⟩
    by_contra hp
    rw [← BitVec.toNat_ofNat, ← hw] at hp
    rw [cfgSpecSetNum_fails hparse hp] at h
    cases h

theorem cfgSpecSetNum_kept (h : (cfgSpecSetNum spec data val).1 = false) :
    (cfgSpecSetNum spec data val).2 = data := by
  cases hparse : tpaParseNum val spec.type with
  | none => rw [cfgSpecSetNum_none hparse]
  | some w =>
    by_cases hp : Passes spec w.toNat
    · rw [hp.set hparse] at h
      cases h
    · rw [cfgSpecSetNum_fails hparse hp]

theorem ValidSetting.accepted {v : Nat} (h : ValidSetting spec val v)
    (hok : val.length < 32 ∧ (∀ m ∈ spec.min, asInt m ≤ v) ∧ ∀ m ∈ spec.max, v ≤ asInt m) :
    ∃ digits u, Accepted spec val digits u ∧ v = digitsVal digits * u := by
  obtain ⟨⟨digits, u, htext, -, rfl⟩, hfits, -, -, hpow⟩ := h
  have hmod : digitsVal digits * u % 2 ^ 64 = digitsVal digits * u := Nat.mod_eq_of_lt (by omega)
  have hu : 0 < u := (scale_some (numText_iff.mp htext).2).2
  have hle := Nat.le_mul_of_pos_right (digitsVal digits) hu
  refine ⟨digits, u, ⟨htext, hok.1, by omega, ?_⟩, rfl⟩
  rw [hmod]
  exact ⟨by omega, hok.2.1, hok.2.2, fun hp => .inr (hpow hp)⟩

/-- `cfg_spec_set_num` judges a text exactly, and stores its exact value, if and only if a valid one
is not refused for its length or a bound that is no `int`, and an accepted one has a digit, a value
of 32 bits inside the bounds, and is not a zero that passes for a power of two. -/
theorem numericSetting_exact_iff (spec : CfgNumSpec) (val : List Char) :
    (∀ data, ((cfgSpecSetNum spec data val).1 = true ↔ ∃ v, ValidSetting spec val v) ∧
      (∀ v, ValidSetting spec val v → (cfgSpecSetNum spec data val).2.toNat = v) ∧
      ((cfgSpecSetNum spec data val).1 = false → (cfgSpecSetNum spec data val).2 = data)) ↔
    ValidTaken spec val ∧ TakenValid spec val := by
  constructor
  · intro h
    constructor
    · intro v hv
      obtain ⟨digits, u, hacc⟩ := accepted_of_ok ((h 0).1.mpr ⟨v, hv⟩)
      have hstored := (h 0).2.1 v hv
      obtain ⟨digits', u', htext, -, hval⟩ := hv.text
      obtain ⟨rfl, rfl⟩ := hacc.text.unique htext
      have hfits := hv.fits
      have hmod : digitsVal digits * u % 2 ^ 64 = v := by
        rw [← hval]; exact Nat.mod_eq_of_lt (by omega)
      have hp := hacc.passes
      rw [hmod] at hp
      exact ⟨hacc.short, hp.min, hp.max⟩
    · intro digits u hacc
      have hok : (cfgSpecSetNum spec 0 val).1 = true := by rw [hacc.set]
      obtain ⟨v, hv⟩ := (h 0).1.mp hok
      obtain ⟨digits', u', htext, hne, hval⟩ := hv.text
      obtain ⟨rfl, rfl⟩ := hacc.text.unique htext
      subst hval
      exact ⟨hne, hv.fits, fun hp => Nat.ne_of_gt (Nat.pos_of_isPowerOfTwo (hv.powerOf2 hp)),
        hv.min, hv.max⟩
  · rintro ⟨htaken, hvalid⟩ data
    refine ⟨⟨fun hok => ?_, ?_⟩, ?_, cfgSpecSetNum_kept⟩
    · obtain ⟨digits, u, hacc⟩ := accepted_of_ok hok
      obtain ⟨hne, hfits, hpow, hmin, hmax⟩ := hvalid digits u hacc
      have hp := hacc.passes
      rw [Nat.mod_eq_of_lt (by omega)] at hp
      exact ⟨_, ⟨digits, u, hacc.text, hne, rfl⟩, hfits, hmin, hmax,
        fun h => (hp.powerOf2 h).resolve_left (hpow h)⟩
    · rintro ⟨v, hv⟩
      obtain ⟨digits, u, hacc, -⟩ := hv.accepted (htaken v hv)
      rw [hacc.set]
    · intro v hv
      obtain ⟨digits, u, hacc, rfl⟩ := hv.accepted (htaken v hv)
      rw [hacc.set, BitVec.toNat_ofNat, Nat.mod_eq_of_lt hv.fits]

def writeChunkSizeSpec : CfgNumSpec := { type := .size, min := some 1, max := some 0xffffffff }

def nrMaxSockSpec : CfgNumSpec := { type := .uint, max := some 0x40000, powerOf2 := true }

/-- A setting without bounds and flags, as `tcp.tso` is one. -/
def plainSpec (type : CfgNumType) : CfgNumSpec := { type := type }

/-- The empty text is a zero, and so is 2^32; 2^34 + 1 gigabytes are one; 32 characters are too
many; and a zero is a power of two. -/
theorem numericSetting_misjudged :
    (cfgSpecSetNum (plainSpec .uint) 7 [] = (true, 0) ∧
      ¬ ∃ v, ValidSetting (plainSpec .uint) [] v) ∧
      (cfgSpecSetNum writeChunkSizeSpec 7 ['1', 'K'] = (false, 7) ∧
        ValidSetting writeChunkSizeSpec ['1', 'K'] 1024) ∧
      cfgSpecSetNum (plainSpec .uint) 7
        ['4', '2', '9', '4', '9', '6', '7', '2', '9', '6'] = (true, 0) ∧
      cfgSpecSetNum (plainSpec .size) 7
        ['1', '7', '1', '7', '9', '8', '6', '9', '1', '8', '5', 'G'] = (true, 0x40000000) ∧
      cfgSpecSetNum (plainSpec .uint) 7 (List.replicate 32 '0') = (false, 7) ∧
      cfgSpecSetNum nrMaxSockSpec 7 ['0'] = (true, 0) := by
  refine ⟨⟨by decide, ?_⟩, ⟨by decide, ?_⟩, by decide, by decide, by decide, by decide⟩
  · rintro ⟨v, hv⟩
    obtain ⟨digits, u, htext, hne, -⟩ := hv.text
    exact hne (numText_iff.mp htext).1.symm
  · have htext : NumText .size ['1', 'K'] ['1'] 1024 := numText_iff.mpr ⟨by decide, by decide⟩
    exact ⟨⟨_, _, htext, by decide, by decide⟩, by decide, by decide, by decide, by decide⟩

theorem cfgSpecSetNum_printed (hmin : spec.min = none) (hmax : spec.max = none)
    (hunit : scale spec.type unit = some u) (hlen : unit.length ≤ 2) (hfits : n * u < 2 ^ 32)
    (data : U32) :
    cfgSpecSetNum spec data (Nat.toDigits 10 n ++ unit) =
      if spec.powerOf2 = true ∧ ¬ (n * u = 0 ∨ (n * u).isPowerOfTwo) then (false, data)
      else (true, BitVec.ofNat 32 (n * u)) := by
  have hu := (scale_some hunit).2
  have hle := Nat.le_mul_of_pos_right n hu
  have hdigits : (Nat.toDigits 10 n).length ≤ 10 :=
    (Nat.length_toDigits_le_iff (by decide) (by decide)).mpr (by omega)
  have hval : digitsVal (Nat.toDigits 10 n) = n := Nat.ofDigitChars_toDigits (by decide) (by decide)
  have htext : NumText spec.type (Nat.toDigits 10 n ++ unit) (Nat.toDigits 10 n) u :=
    ⟨fun c hc => Nat.isDigit_of_mem_toDigits (by decide) (by decide) hc, unit, rfl, hunit⟩
  have hshort : (Nat.toDigits 10 n ++ unit).length < 32 := by
    rw [List.length_append]
    omega
  have hparse := htext.parse hshort (by rw [hval]; omega)
  have hnat : (BitVec.ofNat 64 (digitsVal (Nat.toDigits 10 n) * u)).toNat = n * u := by
    rw [hval, BitVec.toNat_ofNat, Nat.mod_eq_of_lt (by omega)]
  split
  · next hpow =>
    refine cfgSpecSetNum_fails hparse fun hp => hpow.2 ?_
    rw [hnat] at hp
    exact hp.powerOf2 hpow.1
  · next hpow =>
    have hp : Passes spec (n * u) := by
      refine ⟨by omega, ?_, ?_, fun h2 => by tauto⟩
      · rw [hmin]
        exact fun m hm => absurd hm (Option.not_mem_none m)
      · rw [hmax]
        exact fun m hm => absurd hm (Option.not_mem_none m)
    have hacc : Accepted spec _ _ u := ⟨htext, hshort, by rw [hval]; omega, by
      rw [hval, Nat.mod_eq_of_lt (by omega)]
      exact hp⟩
    rw [hacc.set, hval]

/-- What `cfg_spec_get_num` prints is a number with a unit, and its value is the stored one but for
microseconds. -/
theorem cfgSpecGetNum_text (type : CfgNumType) (data : U32) :
    ∃ n u unit, cfgSpecGetNum type data = Nat.toDigits 10 n ++ unit ∧ scale type unit = some u ∧
      unit.length ≤ 2 ∧ n * u = if type = .time ∧ data.toNat % 1000 ≠ 0 then data.toNat / 1000
        else data.toNat := by
  have hplain : Nat.toDigits 10 data.toNat = Nat.toDigits 10 data.toNat ++ [] :=
    (List.append_nil _).symm
  obtain ⟨v, hv⟩ : ∃ v, v = if type = .time ∧ data.toNat % 1000 ≠ 0 then data.toNat / 1000
    else data.toNat :=
    ⟨_, rfl⟩
  rw [← hv]
  unfold cfgSpecGetNum
  cases type with
  | uint =>
    rw [if_neg (by simp)] at hv
    exact ⟨_, 1, [], hplain, rfl, by decide, by omega⟩
  | size =>
    rw [if_neg (by simp)] at hv
    dsimp only
    split_ifs
    · exact ⟨_, 1, [], hplain, rfl, by decide, by omega⟩
    · exact ⟨_, 1024 * 1024 * 1024, _, rfl, by decide, by decide, by omega⟩
    · exact ⟨_, 1024 * 1024, _, rfl, by decide, by decide, by omega⟩
    · exact ⟨_, 1024, _, rfl, by decide, by decide, by omega⟩
    · exact ⟨_, 1, [], hplain, rfl, by decide, by omega⟩
  | time =>
    simp only [true_and] at hv
    dsimp only
    split_ifs with h0 hm hs hms
    · rw [if_neg (by omega)] at hv
      exact ⟨_, 1, [], hplain, rfl, by decide, by omega⟩
    · rw [if_neg (by omega)] at hv
      exact ⟨_, 60 * 1000 * 1000, _, rfl, by decide, by decide, by omega⟩
    · rw [if_neg (by omega)] at hv
      exact ⟨_, 1000 * 1000, _, rfl, by decide, by decide, by omega⟩
    · rw [if_neg (by omega)] at hv
      exact ⟨_, 1000, _, rfl, by decide, by decide, by omega⟩
    · rw [if_pos hms] at hv
      exact ⟨_, 1, _, rfl, by decide, by decide, by omega⟩

/-- A setting without bounds that is read and set again keeps its value, if and only if it is not a
time with a fraction of a millisecond, and a number that the flag for powers of two lets pass. -/
theorem setting_roundTrip_iff (spec : CfgNumSpec) (hmin : spec.min = none) (hmax : spec.max = none)
    (num data : U32) :
    cfgSpecSetNum spec data (cfgSpecGetNum spec.type num) = (true, num) ↔
      (spec.type = .time → num.toNat % 1000 = 0) ∧
        (spec.powerOf2 = true → num.toNat = 0 ∨ num.toNat.isPowerOfTwo) := by
  obtain ⟨n, u, unit, htext, hunit, hlen, hval⟩ := cfgSpecGetNum_text spec.type num
  have hnum := num.isLt
  have hfits : n * u < 2 ^ 32 := by
    rw [hval]
    split <;> omega
  rw [htext, cfgSpecSetNum_printed hmin hmax hunit hlen hfits]
  by_cases hus : spec.type = .time ∧ num.toNat % 1000 ≠ 0
  · -- a thousandth of the value is printed
    rw [if_pos hus] at hval
    refine iff_of_false ?_ fun h => hus.2 (h.1 hus.1)
    split
    · simp
    · intro heq
      have hback := congrArg BitVec.toNat (Prod.mk.inj heq).2
      rw [BitVec.toNat_ofNat, hval, Nat.mod_eq_of_lt (by omega)] at hback
      have hfrac := hus.2
      omega
  · rw [if_neg hus] at hval
    have hback : BitVec.ofNat 32 (n * u) = num := by
      rw [hval, BitVec.ofNat_toNat, BitVec.setWidth_eq]
    have htime : spec.type = .time → num.toNat % 1000 = 0 := fun ht => by
      by_contra hne
      exact hus ⟨ht, hne⟩
    rw [hback, hval]
    split
    · next hpow => exact iff_of_false (by simp) fun h => hpow.2 (h.2 hpow.1)
    · next hpow => exact iff_of_true rfl ⟨htime, fun h2 => by tauto⟩

theorem setting_roundTrip_minute :
    (plainSpec .time).min = none ∧ (plainSpec .time).max = none ∧
      cfgSpecSetNum (plainSpec .time) 0 (cfgSpecGetNum .time 90000000) = (true, 90000000) :=
  ⟨rfl, rfl, (setting_roundTrip_iff (plainSpec .time) rfl rfl 90000000 0).mpr ⟨fun _ => rfl,
    fun h => by cases h⟩⟩

/-- 1500 microseconds are printed as one. -/
theorem setting_microseconds_lost :
    cfgSpecGetNum .time 1500 = ['1', 'u', 's'] ∧
      cfgSpecSetNum (plainSpec .time) 1500 (cfgSpecGetNum .time 1500) = (true, 1) :=
  ⟨by decide, by decide⟩

end LibTpa
