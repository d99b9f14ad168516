/- LibTpa/Cfg/Terminates
   digest: The parser returns exactly when the file does not end in a comment that it gets to. -/

import LibTpa.Cfg.Lexing

set_option autoImplicit false

namespace LibTpa

open LibTpa.Lib Rounds

variable {m : List Bool} {mode : CfgMode} {ctx ctx' : CfgCtx} {token : CfgToken}

structure Stage (a a' : CfgAuto) (ctx ctx' : CfgCtx) : Prop where
  settled : ctx'.file.Settled
  ends : endsIn a ctx.rest = endsIn a' ctx'.rest
  shorter : ctx'.rest.length ≤ ctx.rest.length

theorem Stage.trans {a₁ a₂ a₃ : CfgAuto} {ctx₁ ctx₂ ctx₃ : CfgCtx} (h : Stage a₁ a₂ ctx₁ ctx₂)
    (h' : Stage a₂ a₃ ctx₂ ctx₃) : Stage a₁ a₃ ctx₁ ctx₃ :=
  ⟨h'.settled, h.ends.trans h'.ends, Nat.le_trans h'.shorter h.shorter⟩

def orStopped (ok : Bool) (a : CfgAuto) : CfgAuto := if ok then a else .stopped

@[simp] theorem orStopped_true (a : CfgAuto) : orStopped true a = a := rfl

@[simp] theorem orStopped_false (a : CfgAuto) : orStopped false a = .stopped := rfl

structure TokenTaken (ctx ctx' : CfgCtx) : Prop where
  token : ctx'.token = .consumed
  opt : ctx'.opt = ctx.opt
  mallocOk : ctx'.mallocOk = ctx.mallocOk

theorem tokenDoPeekType_spec (mode : CfgMode) (m : List Bool) (fuel : Nat) (hset : ctx.file.Settled)
    (hcons : ctx.token = .consumed) :
    Returns (Enough (.run mode .start m) ctx 1 fuel) (fun r => r.2.token = r.1 ∧
      r.1 ≠ .consumed ∧ r.2.mallocOk = ctx.mallocOk ∧ r.2.opt = ctx.opt ∧
      Stage (.run mode .start m) (afterToken m mode r.1) ctx r.2 ∧
      (r.1 ≠ .none → r.2.rest.length < ctx.rest.length))
        (tokenDoPeekType fuel ctx mode.countNl) := by
  unfold tokenDoPeekType
  rw [if_neg (by rw [hcons]; simp)]
  have h := peekLoop_spec mode m fuel { ctx with tokenName := [] } hset
  refine (h.imp (fun h => ⟨h.ends, h.rounds⟩) fun _ h => h).map fun r hp => ?_
  have hframe := hp.lexed.frame
  refine ⟨rfl, hp.valid, ?_, ?_, ⟨hp.settled, hp.lexed.ends, hp.lexed.shorter⟩, hp.progress⟩
  · rw [hframe]
  · rw [hframe]

theorem tokenDoGetType_buffered (fuel : Nat) (nl : Bool) (h : ctx.token ≠ .consumed) :
    tokenDoGetType fuel ctx nl = some (ctx.token, { ctx with token := .consumed }) := by
  simp [tokenDoGetType, tokenDoPeekType, h]

theorem tokenDoGetType_spec (mode : CfgMode) (m : List Bool) (fuel : Nat) (hset : ctx.file.Settled)
    (hcons : ctx.token = .consumed) :
    Returns (Enough (.run mode .start m) ctx 1 fuel) (fun r => TokenTaken ctx r.2 ∧
      Stage (.run mode .start m) (afterToken m mode r.1) ctx r.2 ∧
      (r.1 ≠ .none → r.2.rest.length < ctx.rest.length))
        (tokenDoGetType fuel ctx mode.countNl) := by
  refine (tokenDoPeekType_spec mode m fuel hset hcons).map ?_
  rintro r ⟨-, -, hm, ho, hstage, hprog⟩
  exact ⟨⟨rfl, ho, hm⟩, ⟨hstage.settled, hstage.ends, hstage.shorter⟩, hprog⟩

private theorem matchToken_spec (mode : CfgMode) (m : List Bool) (fuel : Nat)
    (hset : ctx.file.Settled) (hcons : ctx.token = .consumed) (hnl : mode.countNl = false)
    {want : CfgToken} {next : CfgAuto}
    (hnext : ∀ token, afterToken m mode token = orStopped (decide (token = want)) next) :
    Returns (Enough (.run mode .start m) ctx 1 fuel) (fun r => TokenTaken ctx r.2 ∧
      Stage (.run mode .start m) (orStopped r.1 next) ctx r.2)
      ((tokenDoGetType fuel ctx false).map fun r => (decide (r.1 = want), r.2)) := by
  have h := tokenDoGetType_spec mode m fuel hset hcons
  rw [hnl] at h
  refine h.map ?_
  rintro r ⟨htaken, hstage, -⟩
  rw [hnext] at hstage
  exact ⟨htaken, hstage⟩

theorem cfgFileMatchBrace_spec (m : List Bool) (fuel : Nat) (hset : ctx.file.Settled)
    (hcons : ctx.token = .consumed) :
    Returns (Enough (.run .brace .start m) ctx 1 fuel) (fun r => TokenTaken ctx r.2 ∧
      Stage (.run .brace .start m) (orStopped r.1 (.run .options .start m)) ctx r.2)
      (cfgFileMatchBrace fuel ctx .braceLeft) := by
  apply matchToken_spec .brace m fuel hset hcons rfl
  intro token
  simp [afterToken, orStopped]

theorem cfgFileMatchEqual_spec (m : List Bool) (fuel : Nat) (hset : ctx.file.Settled)
    (hcons : ctx.token = .consumed) :
    Returns (Enough (.run .equal .start m) ctx 1 fuel) (fun r => TokenTaken ctx r.2 ∧
      Stage (.run .equal .start m) (orStopped r.1 (.run (.value false) .start m)) ctx r.2)
      (cfgFileMatchEqual fuel ctx) := by
  apply matchToken_spec .equal m fuel hset hcons rfl
  intro token
  simp [afterToken, orStopped]

private theorem value_ne_nil (val name : List CfgByte) :
    (val ++ name.takeWhile (· ≠ 0) ++ [chSpace]).take (cfgNameSize - 1) ≠ [] := by
  simp [cfgNameSize]

theorem optValLoop_spec (m : List Bool) (fuel : Nat) :
    ∀ ctx : CfgCtx, ctx.file.Settled → ctx.token = .consumed →
    Returns (Enough (.run (.value (decide (ctx.opt.val ≠ []))) .start m) ctx 2 fuel)
      (fun r => r.2.token = .consumed ∧ r.2.mallocOk = ctx.mallocOk ∧
        Stage (.run (.value (decide (ctx.opt.val ≠ []))) .start m)
          (orStopped r.1 (.run .options .start m)) ctx r.2)
      (optValLoop fuel ctx) := by
  induction fuel with
  | zero => exact fun ctx _ _ => .short fun h => Nat.not_lt_zero _ h.rounds
  | succ fuel ih =>
    intro ctx hset hcons
    have hget := tokenDoGetType_spec (.value (decide (ctx.opt.val ≠ []))) m fuel hset hcons
    rw [CfgMode.countNl] at hget
    unfold optValLoop
    generalize tokenDoGetType fuel ctx true = r at hget ⊢
    obtain _ | ⟨token, ctx₁⟩ := r
    · exact .short fun h => hget.not_enough ⟨h.ends, by have := h.rounds; omega⟩
    obtain ⟨htaken, hstage, hprog⟩ := hget.value
    dsimp only at htaken hstage hprog ⊢
    by_cases hend : token = .optEnd
    · simp only [if_pos hend]
      split
      · next hval =>
        refine .pure ⟨htaken.token, htaken.mallocOk, ?_⟩
        rw [htaken.opt] at hval
        simpa [afterToken, hend, hval] using hstage
      · next hval =>
        refine .pure ⟨htaken.token, htaken.mallocOk, ?_⟩
        rw [htaken.opt] at hval
        have hstage' :
          Stage (.run (.value (decide (ctx.opt.val ≠ []))) .start m) (.run .options .start m)
            ctx ctx₁ := by simpa [afterToken, hend, hval] using hstage
        exact ⟨hstage'.settled, hstage'.ends, hstage'.shorter⟩
    by_cases hstr : token = .string
    swap
    · simp only [if_neg hend, ne_eq, hstr, not_false_eq_true, if_true]
      refine .pure ⟨htaken.token, htaken.mallocOk, ?_⟩
      simpa [afterToken, hend, hstr] using hstage
    simp only [hstr, ne_eq, not_true_eq_false, if_false]
    have hrest := ih { ctx₁ with opt := { ctx₁.opt with
      val :=
        (ctx₁.opt.val ++ ctx₁.tokenName.takeWhile (· ≠ 0) ++ [chSpace]).take (cfgNameSize - 1) } }
      hstage.settled htaken.token
    have hne := value_ne_nil ctx₁.opt.val ctx₁.tokenName
    simp only [decide_eq_true hne] at hrest
    have hstage' :
      Stage (.run (.value (decide (ctx.opt.val ≠ []))) .start m) (.run (.value true) .start m)
        ctx ctx₁ := by simpa [afterToken, hstr] using hstage
    have hlt := hprog (by rw [hstr]; simp)
    refine hrest.imp (fun h => ?_) ?_
    · have hfuel := h.rounds
      refine ⟨hstage'.ends.symm.trans h.ends, ?_⟩
      show ctx₁.rest.length + 2 < fuel
      omega
    · rintro r ⟨ht, hm, hst⟩
      exact ⟨ht, hm.trans htaken.mallocOk, hstage'.trans ⟨hst.settled, hst.ends, hst.shorter⟩⟩

theorem matchOption_spec (m : List Bool) (fuel : Nat) (ctx : CfgCtx) (hset : ctx.file.Settled)
    (hbuf : ctx.token ≠ .consumed) (hopt : ctx.opt = {}) :
    Returns (Enough (orStopped (decide (ctx.token = .string)) (.run .equal .start m)) ctx 2 fuel)
      (fun r => (r.1 = true → ctx.token = .string) ∧ r.2.token = .consumed ∧
        r.2.mallocOk = ctx.mallocOk ∧
        Stage (orStopped (decide (ctx.token = .string)) (.run .equal .start m))
          (orStopped r.1 (.run .options .start m)) ctx r.2)
      (matchOption fuel ctx) := by
  unfold matchOption cfgFileMatchOptName
  rw [tokenDoGetType_buffered fuel false hbuf]
  by_cases hstr : ctx.token = .string
  swap
  · simp only [Option.map_some, ne_eq, hstr, not_false_eq_true, if_true, Option.bind_some,
      Bool.not_false, decide_false, orStopped_false]
    exact .pure ⟨fun h => absurd h Bool.false_ne_true, rfl, rfl, hset, by simp, Nat.le_refl _⟩
  simp only [Option.map_some, ne_eq, hstr, not_true_eq_false, if_false, Option.bind_some,
    Bool.not_true, Bool.false_eq_true, decide_true, orStopped_true]
  refine Returns.bind (cfgFileMatchEqual_spec m fuel (by exact hset) (by rfl)) ?_ ?_
  · intro h
    have hfuel := h.rounds
    exact ⟨h.ends, by show ctx.rest.length + 1 < fuel; omega⟩
  rintro ⟨ok, ctx₁⟩ ⟨htaken, hstage⟩
  have hstage' :
    Stage (.run .equal .start m) (orStopped ok (.run (.value false) .start m)) ctx ctx₁ :=
    ⟨hstage.settled, hstage.ends, hstage.shorter⟩
  cases ok with
  | false =>
    exact .pure ⟨fun h => absurd h Bool.false_ne_true, htaken.token, htaken.mallocOk, hstage'⟩
  | true =>
    have hval := optValLoop_spec m fuel ctx₁ hstage.settled htaken.token
    have hnil : ctx₁.opt.val = [] :=
      (congrArg CfgOpt.val htaken.opt).trans (congrArg CfgOpt.val hopt)
    simp only [hnil, ne_eq, not_true_eq_false, decide_false] at hval
    refine hval.imp (fun h => ⟨hstage'.ends.symm.trans h.ends, ?_⟩) ?_
    · have hfuel := h.rounds
      have hle := hstage'.shorter
      omega
    · rintro r ⟨ht, hm, hst⟩
      exact ⟨fun _ => trivial, ht, hm.trans htaken.mallocOk, hstage'.trans hst⟩

theorem cfgFileMatchOptions_spec (fuel : Nat) :
    ∀ ctx : CfgCtx, ctx.file.Settled → ctx.token = .consumed →
    Returns (Enough (.run .options .start ctx.mallocOk) ctx 3 fuel)
      (fun r => (r.1 = true → r.2.token = .braceRight) ∧
        Stage (.run .options .start ctx.mallocOk)
          (orStopped r.1 (.run .top .start r.2.mallocOk)) ctx r.2)
      (cfgFileMatchOptions fuel ctx) := by
  induction fuel with
  | zero => exact fun ctx _ _ => .short fun h => Nat.not_lt_zero _ h.rounds
  | succ fuel ih =>
    intro ctx hset hcons
    have hpeek := tokenDoPeekType_spec .options ctx.mallocOk fuel hset hcons
    simp only [CfgMode.countNl] at hpeek
    unfold cfgFileMatchOptions
    generalize tokenDoPeekType fuel ctx false = r at hpeek ⊢
    obtain _ | ⟨token, ctx₁⟩ := r
    · exact .short fun h => hpeek.not_enough ⟨h.ends, by have := h.rounds; omega⟩
    obtain ⟨htoken, hvalid, hm, -, hstage, hprog⟩ := hpeek.value
    dsimp only at htoken hvalid hm hstage hprog ⊢
    subst htoken
    by_cases hclose : ctx₁.token = .braceRight
    · simp only [if_pos hclose]
      refine .pure ⟨fun _ => hclose, ?_⟩
      simpa [afterToken, hclose, hm] using hstage
    simp only [if_neg hclose, CfgCtx.malloc]
    by_cases hmalloc : ctx₁.mallocOk.headD true = true
    swap
    · simp only [hmalloc, Bool.not_false, if_true]
      refine .pure ⟨fun h => absurd h Bool.false_ne_true, hstage.settled, ?_, hstage.shorter⟩
      rw [hstage.ends]
      simp only [afterToken, hclose, if_false, ← hm, hmalloc, Bool.false_eq_true, false_and,
        orStopped_false, endsIn_stopped]
    simp only [hmalloc, Bool.not_true, Bool.false_eq_true, if_false]
    -- the token is taken up by the option
    have hafter : afterToken ctx.mallocOk .options ctx₁.token =
        orStopped (decide (ctx₁.token = .string)) (.run .equal .start ctx₁.mallocOk.tail) := by
      simp only [afterToken, orStopped, hclose, if_false, ← hm, hmalloc, true_and,
        decide_eq_true_eq]
    rw [hafter] at hstage
    have hle := hstage.shorter
    have hopt := matchOption_spec ctx₁.mallocOk.tail fuel
      { ctx₁ with mallocOk := ctx₁.mallocOk.tail, opt := {} } hstage.settled hvalid rfl
    generalize matchOption fuel { ctx₁ with mallocOk := ctx₁.mallocOk.tail, opt := {} } = r
      at hopt ⊢
    obtain _ | ⟨ok, ctx₂⟩ := r
    · refine .short fun h => hopt.not_enough ⟨hstage.ends.symm.trans h.ends, ?_⟩
      have hfuel := h.rounds
      show ctx₁.rest.length + 2 < fuel
      omega
    obtain ⟨hstr, htok₂, hm₂, hst₂⟩ := hopt.value
    have hstage₂ : Stage (.run .options .start ctx.mallocOk)
        (orStopped ok (.run .options .start ctx₁.mallocOk.tail)) ctx ctx₂ :=
      hstage.trans ⟨hst₂.settled, hst₂.ends, hst₂.shorter⟩
    cases ok with
    | false => exact .pure ⟨fun h => absurd h Bool.false_ne_true, hstage₂⟩
    | true =>
      have hlt := hprog (by rw [hstr rfl]; simp)
      have hsh : ctx₂.rest.length ≤ ctx₁.rest.length := hst₂.shorter
      have htail : ctx₁.mallocOk.tail = ctx₂.mallocOk := hm₂.symm
      rw [htail] at hstage₂
      refine (ih { ctx₂ with section_ := { ctx₂.section_ with
        opts := cfgOptInsert ctx₂.section_.opts ctx₂.opt } } hst₂.settled htok₂).imp
          (fun h => ⟨hstage₂.ends.symm.trans h.ends, ?_⟩) ?_
      · have hfuel := h.rounds
        show ctx₂.rest.length + 3 < fuel
        omega
      · rintro r ⟨hclose', hst₃⟩
        exact ⟨hclose', hstage₂.trans ⟨hst₃.settled, hst₃.ends, hst₃.shorter⟩⟩

theorem matchSectionParts_spec (fuel : Nat) (ctx : CfgCtx) (hset : ctx.file.Settled)
    (hbuf : ctx.token ≠ .consumed) :
    Returns
      (Enough (orStopped (decide (ctx.token = .string)) (.run .brace .start ctx.mallocOk))
        ctx 3 fuel)
      (fun r => (r.1 = true → r.2.token = .consumed) ∧
        Stage (orStopped (decide (ctx.token = .string)) (.run .brace .start ctx.mallocOk))
          (orStopped r.1 (.run .top .start r.2.mallocOk)) ctx r.2)
      (matchSectionParts fuel ctx) := by
  unfold matchSectionParts cfgFileMatchSectionName
  rw [tokenDoGetType_buffered fuel false hbuf]
  by_cases hstr : ctx.token = .string
  swap
  · simp only [Option.map_some, ne_eq, hstr, not_false_eq_true, if_true, Option.bind_some,
      Bool.not_false, decide_false, orStopped_false]
    exact .pure ⟨fun _ => rfl, hset, by simp, Nat.le_refl _⟩
  simp only [Option.map_some, ne_eq, hstr, not_true_eq_false, if_false, Option.bind_some,
    Bool.not_true, Bool.false_eq_true, decide_true, orStopped_true]
  refine Returns.bind (cfgFileMatchBrace_spec ctx.mallocOk fuel (by exact hset) (by rfl)) ?_ ?_
  · intro h
    have hfuel := h.rounds
    exact ⟨h.ends, by show ctx.rest.length + 1 < fuel; omega⟩
  rintro ⟨ok, ctx₁⟩ ⟨htaken, hst₁⟩
  have hm₁ : ctx₁.mallocOk = ctx.mallocOk := htaken.mallocOk
  have hstage :
    Stage (.run .brace .start ctx.mallocOk) (orStopped ok (.run .options .start ctx₁.mallocOk))
      ctx ctx₁ := by
    rw [hm₁]
    exact ⟨hst₁.settled, hst₁.ends, hst₁.shorter⟩
  cases ok with
  | false => exact .pure ⟨fun h => absurd h Bool.false_ne_true, hstage⟩
  | true =>
    refine Returns.bind (cfgFileMatchOptions_spec fuel ctx₁ hstage.settled htaken.token)
      (fun h => ⟨hstage.ends.symm.trans h.ends, ?_⟩) ?_
    · have hfuel := h.rounds
      have hle := hstage.shorter
      omega
    rintro ⟨ok, ctx₂⟩ ⟨hclose, hst₂⟩
    have hstage₂ := hstage.trans hst₂
    cases ok with
    | false => exact .pure ⟨fun h => absurd h Bool.false_ne_true, hstage₂⟩
    | true =>
      -- the closing brace was seen by the loop over the options
      have htok₂ : ctx₂.token = .braceRight := hclose rfl
      simp only [Bool.not_true, Bool.false_eq_true, if_false, cfgFileMatchBrace]
      rw [tokenDoGetType_buffered fuel false (by rw [htok₂]; simp), htok₂]
      exact .pure ⟨fun _ => rfl, hstage₂.settled, hstage₂.ends, hstage₂.shorter⟩

theorem cfgFileMatchSection_spec (fuel : Nat) (hset : ctx.file.Settled)
    (hbuf : ctx.token ≠ .consumed) (hnone : ctx.token ≠ .none) :
    Returns (Enough (afterToken ctx.mallocOk .top ctx.token) ctx 3 fuel)
      (fun r => (r.1 = true → r.2.token = .consumed) ∧
        Stage (afterToken ctx.mallocOk .top ctx.token)
          (orStopped r.1 (.run .top .start r.2.mallocOk)) ctx r.2)
      (cfgFileMatchSection fuel ctx) := by
  unfold cfgFileMatchSection
  simp only [CfgCtx.malloc]
  by_cases hmalloc : ctx.mallocOk.headD true = true
  swap
  · simp only [hmalloc, Bool.not_false, if_true]
    refine .pure ⟨fun h => absurd h Bool.false_ne_true, hset, ?_, Nat.le_refl _⟩
    simp only [afterToken, hnone, if_false, hmalloc, Bool.false_eq_true, false_and, endsIn_stopped,
      orStopped_false]
  simp only [hmalloc, Bool.not_true, Bool.false_eq_true, if_false]
  have hafter : afterToken ctx.mallocOk .top ctx.token =
      orStopped (decide (ctx.token = .string)) (.run .brace .start ctx.mallocOk.tail) := by
    simp only [afterToken, orStopped, hnone, if_false, hmalloc, true_and, decide_eq_true_eq]
  rw [hafter]
  have hparts :=
    matchSectionParts_spec fuel { ctx with mallocOk := ctx.mallocOk.tail, section_ := {} } hset hbuf
  refine (hparts.imp (fun h => ⟨h.ends, h.rounds⟩) fun _ h => h).map ?_
  rintro ⟨ok, ctx₁⟩ ⟨htok, hstage⟩
  split
  · exact ⟨htok, hstage.settled, hstage.ends, hstage.shorter⟩
  · exact ⟨htok, hstage.settled, hstage.ends, hstage.shorter⟩

theorem parseLoop_spec (fuel : Nat) : ∀ ctx : CfgCtx, ctx.file.Settled → ctx.token = .consumed →
    Returns (Enough (.run .top .start ctx.mallocOk) ctx 4 fuel)
      (fun r => endsIn (.run .top .start ctx.mallocOk) ctx.rest = false ∧ r.2.file.Settled)
      (parseLoop fuel ctx) := by
  induction fuel with
  | zero => exact fun ctx _ _ => .short fun h => Nat.not_lt_zero _ h.rounds
  | succ fuel ih =>
    intro ctx hset hcons
    have hpeek := tokenDoPeekType_spec .top ctx.mallocOk fuel hset hcons
    simp only [CfgMode.countNl] at hpeek
    unfold parseLoop
    generalize tokenDoPeekType fuel ctx false = r at hpeek ⊢
    obtain _ | ⟨token, ctx₁⟩ := r
    · exact .short fun h => hpeek.not_enough ⟨h.ends, by have := h.rounds; omega⟩
    obtain ⟨htoken, hvalid, hm, -, hstage, hprog⟩ := hpeek.value
    dsimp only at htoken hvalid hm hstage hprog ⊢
    subst htoken
    split
    · next hnone =>
      refine .pure ⟨?_, hstage.settled⟩
      rw [hstage.ends, hnone, afterToken_none, endsIn_stopped]
    next hnone =>
    rw [← hm] at hstage ⊢
    have hlt := hprog hnone
    have hsec := cfgFileMatchSection_spec fuel hstage.settled hvalid hnone
    generalize cfgFileMatchSection fuel ctx₁ = r at hsec ⊢
    obtain _ | ⟨ok, ctx₂⟩ := r
    · refine .short fun h => hsec.not_enough ⟨hstage.ends.symm.trans h.ends, ?_⟩
      have hfuel := h.rounds
      omega
    obtain ⟨htok, hst₂⟩ := hsec.value
    have hstage₂ := hstage.trans hst₂
    cases ok with
    | false =>
      refine .pure ⟨?_, hstage₂.settled⟩
      rw [hstage₂.ends, orStopped_false, endsIn_stopped]
    | true =>
      have hle : ctx₂.rest.length ≤ ctx₁.rest.length := hst₂.shorter
      refine (ih ctx₂ hst₂.settled (htok rfl)).imp (fun h =>
        ⟨hstage₂.ends.symm.trans h.ends, ?_⟩) ?_
      · have hfuel := h.rounds
        omega
      · rintro r ⟨hends, hfin⟩
        exact ⟨hstage₂.ends.trans hends, hfin⟩

/-- `cfg_file_parse` returns after some number of rounds, with each byte read at most twice. -/
def ParseReturns (bytes : List CfgByte) (sections : List CfgSection) (mallocOk : List Bool) :
    Prop :=
  ∃ fuel ret ctx, cfgFileParse fuel bytes sections mallocOk = some (ret, ctx) ∧
    ∀ pos, ctx.file.log.count pos ≤ 2

private theorem settled_start (bytes : List CfgByte) :
    Reader.Settled ({ data := bytes } : Reader CfgByte) :=
  ⟨fun _ => Nat.zero_le _, Nat.zero_le _, fun _ _ => rfl⟩

private theorem cfgFileParse_ends {fuel : Nat} {bytes : List CfgByte} {sections : List CfgSection}
    {mallocOk : List Bool} {r : Int × CfgCtx}
    (h : cfgFileParse fuel bytes sections mallocOk = some r) :
    endsInComment mallocOk bytes = false ∧ r.2.file.Settled :=
  (parseLoop_spec fuel _ (settled_start bytes) rfl).post r h

/-- The parser returns exactly when the file does not end in a comment that it gets to. -/
theorem cfgFileParse_returns_iff (bytes : List CfgByte) (sections : List CfgSection)
    (mallocOk : List Bool) :
    ParseReturns bytes sections mallocOk ↔ endsInComment mallocOk bytes = false := by
  constructor
  · rintro ⟨fuel, ret, ctx, h, -⟩
    exact (cfgFileParse_ends h).1
  · intro hends
    have hsome := (parseLoop_spec (bytes.length + 5)
      { file := { data := bytes }, sections := sections, mallocOk := mallocOk }
      (settled_start bytes) rfl).total ⟨hends, Nat.lt_succ_self _⟩
    obtain ⟨⟨ret, ctx⟩, hr⟩ := Option.isSome_iff_exists.1 hsome
    exact ⟨bytes.length + 5, ret, ctx, hr, (cfgFileParse_ends hr).2.twice⟩

/-- A file that ends with a number sign; with a line end after it the parser returns. -/
theorem openComment_never_returns :
    ¬ ParseReturns [chHash] [] [] ∧ ¬ ParseReturns [0x61, chOpen, chClose, chHash, 0x62] [] [] ∧
      ParseReturns [chHash, chNl] [] [] := by
  refine ⟨?_, ?_, ?_⟩
  · rintro ⟨fuel, ret, ctx, h, -⟩
    exact absurd (cfgFileParse_ends h).1 (by decide)
  · rintro ⟨fuel, ret, ctx, h, -⟩
    exact absurd (cfgFileParse_ends h).1 (by decide)
  · have hr : (cfgFileParse 9 [chHash, chNl] [] []).isSome = true := by decide
    obtain ⟨⟨ret, ctx⟩, hr⟩ := Option.isSome_iff_exists.1 hr
    exact ⟨9, ret, ctx, hr, (cfgFileParse_ends hr).2.twice⟩

end LibTpa
