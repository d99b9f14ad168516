/- LibTpa/Cfg/Lexing
   digest: A token of the parser is a stretch of the automaton, and each byte is read at most
   twice. -/

import LibTpa.Cfg.Automaton
import LibTpa.Lib.Rounds

set_option autoImplicit false

namespace LibTpa

open LibTpa.Lib Rounds

variable {m : List Bool} {mode : CfgMode} {ctx ctx' : CfgCtx} {c : CfgByte}

def CfgCtx.rest (ctx : CfgCtx) : List CfgByte := ctx.file.rest

def CfgCtx.read (ctx : CfgCtx) : CfgCtx := { ctx with file := ctx.file.advance }

theorem fgetc_cases (ctx : CfgCtx) : (ctx.rest = [] ∧ fgetc ctx = (chEof, ctx)) ∨
    ∃ c l, ctx.rest = c :: l ∧ fgetc ctx = (c, ctx.read) ∧ ctx.read.rest = l := by
  cases h : ctx.rest with
  | nil => exact .inl ⟨rfl, by simp [fgetc, Reader.next_nil h]⟩
  | cons c l =>
    refine .inr ⟨c, l, rfl, ?_, Reader.rest_advance h⟩
    simp [fgetc, Reader.next_cons h, CfgCtx.read]

/-- The automaton goes from `a` to `a'` over the bytes between `ctx` and `ctx'`, as far as the
end of the file is concerned. -/
structure Lexed (a a' : CfgAuto) (ctx ctx' : CfgCtx) : Prop where
  ends : endsIn a ctx.rest = endsIn a' ctx'.rest
  shorter : ctx'.rest.length ≤ ctx.rest.length
  frame : ctx' = { ctx with file := ctx'.file, tokenName := ctx'.tokenName }

theorem Lexed.trans {a₁ a₂ a₃ : CfgAuto} {ctx₁ ctx₂ ctx₃ : CfgCtx} (h : Lexed a₁ a₂ ctx₁ ctx₂)
    (h' : Lexed a₂ a₃ ctx₂ ctx₃) : Lexed a₁ a₃ ctx₁ ctx₃ where
  ends := h.ends.trans h'.ends
  shorter := Nat.le_trans h'.shorter h.shorter
  frame := by
    have h1 := h.frame
    have h2 := h'.frame
    rw [h1] at h2
    exact h2

theorem Lexed.of_rest {a a' : CfgAuto} {name : List CfgByte}
    (h : endsIn a ctx.rest = endsIn a' ctx.rest) :
    Lexed a a' ctx { ctx with tokenName := name } := ⟨h, Nat.le_refl _, rfl⟩

theorem Lexed.read {a a' : CfgAuto} {l : List CfgByte} (hrest : ctx.rest = c :: l)
    (hl : ctx.read.rest = l) (h : autoStep a c = a') : Lexed a a' ctx ctx.read where
  ends := by rw [hrest, hl, endsIn_cons, h]
  shorter := by rw [hrest, hl]; exact Nat.le_succ _
  frame := rfl

private theorem tokenPutChar_cases (ctx : CfgCtx) (c : CfgByte) :
    (cfgNameSize - 1 ≤ ctx.tokenName.length ∧ tokenPutChar ctx c = (false, ctx)) ∨
    (ctx.tokenName.length < cfgNameSize - 1 ∧
      tokenPutChar ctx c = (true, { ctx with tokenName := ctx.tokenName ++ [c] })) := by
  by_cases h : ctx.tokenName.length ≥ cfgNameSize - 1
  · exact .inl ⟨h, by simp [tokenPutChar, h]⟩
  · exact .inr ⟨by omega, by simp [tokenPutChar, h]⟩

def quoteEnd (m : List Bool) (mode : CfgMode) (ctx : CfgCtx) (ok : Bool) : CfgAuto :=
  if ok then .run mode (.string ctx.tokenName.length) m else .stopped

theorem matchQuotedString_spec (fuel : Nat) : ∀ ctx : CfgCtx, ctx.file.Fresh →
    Returns (ctx.rest.length < fuel) (fun r => r.2.file.Fresh ∧
      Lexed (.run mode (.quote ctx.tokenName.length) m) (quoteEnd m mode r.2 r.1) ctx r.2)
      (matchQuotedString fuel ctx) := by
  induction fuel with
  | zero => exact fun ctx _ => .short (Nat.not_lt_zero _)
  | succ fuel ih =>
    intro ctx hfresh
    unfold matchQuotedString
    rcases fgetc_cases ctx with ⟨hrest, hget⟩ | ⟨c, l, hrest, hget, hl⟩
    · simp only [hget, if_pos]
      exact .pure ⟨hfresh, by rw [hrest]; rfl, Nat.le_refl _, rfl⟩
    have hnext : ctx.read.file.Fresh := hfresh.settled.advance
    simp only [hget]
    split
    · next heof => exact .pure ⟨hnext, .read hrest hl (by simp [autoStep, heof, quoteEnd])⟩
    next heof =>
    split
    · next hq =>
      exact .pure ⟨hnext, .read hrest hl (by simp only [autoStep, if_neg heof, if_pos hq]; rfl)⟩
    next hq =>
    rcases tokenPutChar_cases ctx.read c with ⟨hlen, hput⟩ | ⟨hlen, hput⟩
    · have hlen' : ctx.tokenName.length ≥ cfgNameSize - 1 := hlen
      simp only [hput]
      exact .pure ⟨hnext, .read hrest hl
        (by simp only [autoStep, if_neg heof, if_neg hq, if_pos hlen']; rfl)⟩
    · have hlen' : ¬ ctx.tokenName.length ≥ cfgNameSize - 1 := Nat.not_le.2 hlen
      simp only [hput, if_true]
      have hread : Lexed (.run mode (.quote ctx.tokenName.length) m)
          (.run mode (.quote (ctx.tokenName.length + 1)) m) ctx ctx.read :=
        .read hrest hl (by simp only [autoStep, if_neg heof, if_neg hq, if_neg hlen'])
      refine (ih { ctx.read with tokenName := ctx.read.tokenName ++ [c] } hnext).imp ?_ ?_
      · intro hfuel
        change ctx.read.rest.length < fuel
        rw [hrest, List.length_cons] at hfuel
        rw [hl]
        omega
      · rintro r ⟨hf, hlex⟩
        have hname : (ctx.read.tokenName ++ [c]).length = ctx.tokenName.length + 1 :=
          List.length_append
        rw [hname] at hlex
        exact ⟨hf, hread.trans ⟨hlex.ends, hlex.shorter, hlex.frame⟩⟩

private theorem stringByte_spec (m : List Bool) (mode : CfgMode) (fuel : Nat)
    (ctx : CfgCtx) (c : CfgByte) (hfresh : ctx.file.Fresh) :
    Returns (ctx.rest.length < fuel) (fun r => r.2.file.Fresh ∧
      Lexed (stringPut m mode ctx.tokenName.length c) (quoteEnd m mode r.2 r.1) ctx r.2)
      (if c = chQuote then matchQuotedString fuel ctx else some (tokenPutChar ctx c)) := by
  by_cases hq : c = chQuote
  · simp only [if_pos hq, stringPut]
    exact matchQuotedString_spec fuel ctx hfresh
  simp only [if_neg hq, stringPut]
  rcases tokenPutChar_cases ctx c with ⟨hlen, hput⟩ | ⟨hlen, hput⟩
  · rw [hput, if_pos hlen]
    exact .pure ⟨hfresh, rfl, Nat.le_refl _, rfl⟩
  · rw [hput, if_neg (Nat.not_le.2 hlen)]
    refine .pure ⟨hfresh, ?_, Nat.le_refl _, rfl⟩
    simp only [quoteEnd, if_true, List.length_append, List.length_singleton]
    rfl

private theorem stringToken_length (ctx : CfgCtx) :
    stringToken ctx = lengthToken ctx.tokenName.length := by
  simp [stringToken, lengthToken, List.length_eq_zero_iff]

private theorem lengthToken_ne (idx : Nat) : lengthToken idx ≠ .consumed := by
  unfold lengthToken
  split <;> simp

theorem stringLoop_spec (m : List Bool) (mode : CfgMode) (fuel : Nat) :
    ∀ (ctx : CfgCtx) (c : CfgByte), ctx.file.Fresh →
    Returns (ctx.rest.length + 1 < fuel) (fun r => r.1 ≠ .consumed ∧ r.2.file.Settled ∧
      Lexed (stringPut m mode ctx.tokenName.length c) (afterToken m mode r.1) ctx r.2)
      (stringLoop fuel ctx c) := by
  induction fuel with
  | zero => exact fun ctx c _ => .short (Nat.not_lt_zero _)
  | succ fuel ih =>
    intro ctx c hfresh
    have hbyte := stringByte_spec m mode fuel ctx c hfresh
    unfold stringLoop
    generalize (if c = chQuote then matchQuotedString fuel ctx else some (tokenPutChar ctx c)) = r
      at hbyte ⊢
    match r with
    | none => exact .short fun hfuel => hbyte.not_enough (by omega)
    | some (false, ctx₁) =>
      refine .pure ⟨by simp, hbyte.value.1.settled, ?_⟩
      rw [afterToken_bad]
      exact hbyte.value.2
    | some (true, ctx₁) =>
      obtain ⟨hf, hlex⟩ := hbyte.value
      simp only [quoteEnd, if_true] at hf hlex
      dsimp only
      rw [stringToken_length]
      rcases fgetc_cases ctx₁ with ⟨hrest, hget⟩ | ⟨c₁, l, hrest, hget, hl⟩
      · simp only [hget, if_pos]
        refine .pure ⟨lengthToken_ne _, hf.settled, hlex.trans ⟨?_, Nat.le_refl _, rfl⟩⟩
        rw [hrest, endsIn_afterToken_nil]
        rfl
      have hnext : ctx₁.read.file.Fresh := hf.settled.advance
      simp only [hget]
      split
      · next heof =>
        refine .pure ⟨lengthToken_ne _, hnext.settled, hlex.trans (.read hrest hl ?_)⟩
        simp only [autoStep, if_pos heof]
        rfl
      next heof =>
      by_cases hc : isValidChar c₁ = true
      · simp only [hc, Bool.not_true, Bool.false_eq_true, if_false]
        refine (ih ctx₁.read c₁ hnext).imp (fun hfuel => ?_) ?_
        · have hsh := hlex.shorter
          rw [hrest, List.length_cons] at hsh
          rw [hl]
          omega
        · rintro r ⟨hne, hset, hlex'⟩
          refine ⟨hne, hset, hlex.trans (Lexed.trans (.read hrest hl ?_) hlex')⟩
          simp only [autoStep, if_neg heof, hc, if_true]
          rfl
      · rw [Bool.not_eq_true] at hc
        simp only [hc, Bool.not_false, if_true]
        refine .pure ⟨lengthToken_ne _, hf.advance_back, hlex.trans ⟨?_, Nat.le_refl _, rfl⟩⟩
        show endsIn _ ctx₁.rest = endsIn _ ctx₁.rest
        rw [hrest]
        exact endsIn_string_end heof hc

/-- The rounds are enough for the bytes that are left, and these do not end in a comment. -/
structure Enough (a : CfgAuto) (ctx : CfgCtx) (k fuel : Nat) : Prop where
  ends : endsIn a ctx.rest = false
  rounds : ctx.rest.length + k < fuel

theorem commentLoop_spec (mode : CfgMode) (m : List Bool) (fuel : Nat) :
    ∀ (ctx : CfgCtx) (c : CfgByte),
    ctx.file.Fresh → c ≠ chNl →
    Returns (Enough (.run mode .comment m) ctx 1 fuel) (fun ctx' => ∃ ctx₁ l, ctx' = ctx₁.read ∧
      ctx₁.file.Fresh ∧ ctx₁.rest = chNl :: l ∧ ctx₁.read.rest = l ∧
      Lexed (.run mode .comment m) (.run mode .start m) ctx ctx₁) (commentLoop fuel ctx c) := by
  induction fuel with
  | zero => exact fun ctx c _ _ => .short fun h => Nat.not_lt_zero _ h.rounds
  | succ fuel ih =>
    intro ctx c hfresh hc
    unfold commentLoop
    rw [if_neg hc]
    rcases fgetc_cases ctx with ⟨hrest, hget⟩ | ⟨c₁, l, hrest, hget, hl⟩
    · simp only [hget]
      refine (ih ctx chEof hfresh (by decide)).imp (fun h => ?_) fun _ h => h
      have hends := h.ends
      rw [hrest] at hends
      exact absurd hends.symm Bool.false_ne_true
    simp only [hget]
    by_cases hnl : c₁ = chNl
    · cases fuel with
      | zero => exact .short fun h => absurd h.rounds (by omega)
      | succ fuel =>
        simp only [commentLoop, if_pos hnl]
        refine .pure ⟨ctx, l, rfl, hfresh, by rw [hrest, hnl], hl, ?_, Nat.le_refl _, rfl⟩
        rw [hrest, hnl]
        rfl
    · have hread : Lexed (.run mode .comment m) (.run mode .comment m) ctx ctx.read :=
        .read hrest hl (by simp only [autoStep, if_neg hnl])
      refine (ih ctx.read c₁ hfresh.settled.advance hnl).imp (fun h => ?_) ?_
      · have hfuel := h.rounds
        rw [hrest, List.length_cons] at hfuel
        exact ⟨hread.ends.symm.trans h.ends, by rw [hl]; omega⟩
      · rintro ctx' ⟨ctx₁, l', heq, hf, hr, hr', hlex⟩
        exact ⟨ctx₁, l', heq, hf, hr, hr', hread.trans hlex⟩

private theorem getStringToken_spec (mode : CfgMode) (m : List Bool) (fuel : Nat)
    (ctx : CfgCtx) (c : CfgByte) (hfresh : ctx.file.Fresh) :
    Returns (ctx.rest.length + 1 < fuel) (fun r => r.1 ≠ .consumed ∧ r.2.file.Settled ∧
      Lexed (if isValidChar c then stringPut m mode 0 c
        else .stopped) (afterToken m mode r.1) ctx r.2)
      (getStringToken fuel ctx c) := by
  unfold getStringToken
  by_cases hc : isValidChar c = true
  · simp only [hc, Bool.not_true, Bool.false_eq_true, if_false, if_true]
    refine (stringLoop_spec m mode fuel { ctx with tokenName := [] } c hfresh).imp id ?_
    rintro r ⟨hne, hset, hlex⟩
    exact ⟨hne, hset, hlex.ends, hlex.shorter, hlex.frame⟩
  · simp only [hc, Bool.not_false, if_true, Bool.false_eq_true, if_false]
    refine .pure ⟨by simp, hfresh.settled, ?_, Nat.le_refl _, rfl⟩
    rw [afterToken_bad]

/-- What a token from `ctx` is, if it took the parser to `ctx'`. -/
structure Peeked (mode : CfgMode) (m : List Bool) (token : CfgToken) (ctx ctx' : CfgCtx) :
    Prop where
  valid : token ≠ .consumed
  settled : ctx'.file.Settled
  lexed : Lexed (.run mode .start m) (afterToken m mode token) ctx ctx'
  progress : token ≠ .none → ctx'.rest.length < ctx.rest.length

private theorem Peeked.byte {token : CfgToken} {l name : List CfgByte} (hset : ctx.file.Settled)
    (hrest : ctx.rest = c :: l) (hl : ctx.read.rest = l) (hvalid : token ≠ .consumed)
    (hstep : startStep m mode c = afterToken m mode token) :
    Peeked mode m token ctx { ctx.read with tokenName := name } where
  valid := hvalid
  settled := hset.advance.settled
  lexed := Lexed.trans (.read hrest hl hstep) (.of_rest rfl)
  progress := fun _ => by
    show ctx.read.rest.length < ctx.rest.length
    rw [hrest, hl]
    exact Nat.lt_succ_self _

private theorem Peeked.skip {token : CfgToken} {ctx₁ : CfgCtx}
    (hskip : Lexed (.run mode .start m) (.run mode .start m) ctx ctx₁)
    (h : Peeked mode m token ctx₁ ctx') :
    Peeked mode m token ctx ctx' where
  valid := h.valid
  settled := h.settled
  lexed := hskip.trans h.lexed
  progress := fun hne => Nat.lt_of_lt_of_le (h.progress hne) hskip.shorter

private theorem commentEnd_spec (mode : CfgMode) (m : List Bool) {l : List CfgByte}
    (hfresh : ctx.file.Fresh) (hrest : ctx.rest = chNl :: l) (hl : ctx.read.rest = l) :
    (if mode.countNl then ungetc ctx.read else ctx.read).file.Settled ∧
      Lexed (.run mode .start m) (.run mode .start m) ctx (if mode.countNl then ungetc ctx.read
        else ctx.read) := by
  cases hcount : mode.countNl with
  | true => exact ⟨hfresh.advance_back, rfl, Nat.le_refl _, rfl⟩
  | false =>
    refine ⟨hfresh.settled.advance.settled, .read hrest hl ?_⟩
    simp only [autoStep, startStep, hcount]
    rfl

theorem peekLoop_spec (mode : CfgMode) (m : List Bool) (fuel : Nat) :
    ∀ ctx : CfgCtx, ctx.file.Settled →
    Returns (Enough (.run mode .start m) ctx 1 fuel) (fun r => Peeked mode m r.1 ctx r.2)
      (peekLoop mode.countNl fuel ctx) := by
  induction fuel with
  | zero => exact fun ctx _ => .short fun h => Nat.not_lt_zero _ h.rounds
  | succ fuel ih =>
    intro ctx hset
    unfold peekLoop
    rcases fgetc_cases ctx with ⟨hrest, hget⟩ | ⟨c, l, hrest, hget, hl⟩
    · simp only [hget, if_pos]
      refine .pure ⟨by simp, hset, ⟨?_, Nat.le_refl _, rfl⟩, fun hne => absurd rfl hne⟩
      rw [hrest, endsIn_afterToken_nil]
      rfl
    have hfresh : ctx.read.file.Fresh := hset.advance
    have hlen : ctx.rest.length = ctx.read.rest.length + 1 := by rw [hrest, hl, List.length_cons]
    -- what goes on from a later point of the file
    have hpass : ∀ {ctx₁ : CfgCtx}, ctx₁.file.Settled → ctx₁.rest.length < ctx.rest.length →
        Lexed (.run mode .start m) (.run mode .start m) ctx ctx₁ →
        Returns (Enough (.run mode .start m) ctx 1 (fuel + 1)) (fun r => Peeked mode m r.1 ctx r.2)
          (peekLoop mode.countNl fuel ctx₁) := by
      intro ctx₁ hset₁ hlt hlex
      refine (ih ctx₁ hset₁).imp (fun h => ⟨hlex.ends.symm.trans h.ends, ?_⟩) fun r h => h.skip hlex
      have hfuel := h.rounds
      omega
    have hcomment : startStep m mode c = .run mode .comment m → c ≠ chNl →
        Returns (Enough (.run mode .start m) ctx 1 (fuel + 1)) (fun r => Peeked mode m r.1 ctx r.2)
          ((commentLoop fuel ctx.read c).bind fun ctx =>
            peekLoop mode.countNl fuel (if mode.countNl then ungetc ctx else ctx)) := by
      intro hstep hnl
      have hread : Lexed (.run mode .start m) (.run mode .comment m) ctx ctx.read :=
        .read hrest hl hstep
      refine (commentLoop_spec mode m fuel ctx.read c hfresh hnl).bind
        (fun h => ⟨hread.ends.symm.trans h.ends, ?_⟩) ?_
      · have hfuel := h.rounds
        omega
      rintro ctx₂ ⟨ctx₁, l', rfl, hf₁, hr₁, hr₁', hlex₁⟩
      obtain ⟨hs₂, hlex₂⟩ := commentEnd_spec mode m hf₁ hr₁ hr₁'
      have hle := (hlex₁.trans hlex₂).shorter
      exact hpass hs₂ (by omega) ((hread.trans hlex₁).trans hlex₂)
    have hstep : startStep m mode c = startStep m mode c := rfl
    conv_rhs at hstep => unfold startStep
    generalize hfin : (if isValidChar c then stringPut m mode 0 c else .stopped) = fin at hstep
    simp only [hget]
    split_ifs at hstep ⊢ with heof hblank hnl hcount hsemi hhash hcount hopen hclose hequal
    · exact .pure (.byte hset hrest hl (by simp) hstep)
    · exact hpass hfresh.settled (by omega) (.read hrest hl hstep)
    · exact .pure (.byte hset hrest hl (by simp) hstep)
    · exact hpass hfresh.settled (by omega) (.read hrest hl hstep)
    · exact .pure (.byte hset hrest hl (by simp) hstep)
    · have h := hcomment hstep hnl
      simp only [if_pos hcount] at h
      generalize commentLoop fuel ctx.read c = r at h ⊢
      cases r <;> exact h
    · have h := hcomment hstep hnl
      simp only [if_neg hcount] at h
      generalize commentLoop fuel ctx.read c = r at h ⊢
      cases r <;> exact h
    · exact .pure (.byte hset hrest hl (by simp) hstep)
    · exact .pure (.byte hset hrest hl (by simp) hstep)
    · exact .pure (.byte hset hrest hl (by simp) hstep)
    · refine (getStringToken_spec mode m fuel ctx.read c hfresh).imp (fun h => ?_) ?_
      · have hfuel := h.rounds
        omega
      · rintro r ⟨hv, hs, hlex⟩
        rw [hfin] at hlex
        refine ⟨hv, hs, Lexed.trans (.read hrest hl hstep) hlex, fun _ => ?_⟩
        have hle := hlex.shorter
        omega

end LibTpa
