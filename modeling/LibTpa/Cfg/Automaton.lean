/- LibTpa/Cfg/Automaton
   digest: The grammar of the configuration file as one pass over its bytes. -/

import LibTpa.Cfg.Parse

/-!
The automaton reads each byte once and needs no rounds. It says where the parser is: which
token it waits for, and whether it is between tokens, in a comment, a string or a quotation.
-/

set_option autoImplicit false

namespace LibTpa

/-- What the parser waits for: a section, its brace, an option or the closing brace, the equal
sign, or the value of an option, of which it may have a part. -/
inductive CfgMode
  | top
  | brace
  | options
  | equal
  | value (got : Bool)
  deriving DecidableEq

inductive CfgLex
  | start
  | comment
  | string (idx : Nat)
  | quote (idx : Nat)
  deriving DecidableEq

/-- The state between two bytes; `mallocOk` is what `malloc` is going to answer. -/
inductive CfgAuto
  | run (mode : CfgMode) (lex : CfgLex) (mallocOk : List Bool)
  | stopped
  deriving DecidableEq

def CfgMode.countNl : CfgMode → Bool
  | .value _ => true
  | _ => false

def afterToken (m : List Bool) : CfgMode → CfgToken → CfgAuto
  | .top, token =>
    if token = .none then .stopped
    else if m.headD true ∧ token = .string then .run .brace .start m.tail
    else .stopped
  | .brace, token => if token = .braceLeft then .run .options .start m else .stopped
  | .options, token =>
    if token = .braceRight then .run .top .start m
    else if m.headD true ∧ token = .string then .run .equal .start m.tail
    else .stopped
  | .equal, token => if token = .equal then .run (.value false) .start m else .stopped
  | .value got, token =>
    if token = .optEnd ∧ got then .run .options .start m
    else if token = .string then .run (.value true) .start m
    else .stopped

def stringPut (m : List Bool) (mode : CfgMode) (idx : Nat) (c : CfgByte) : CfgAuto :=
  if c = chQuote then .run mode (.quote idx) m
  else if idx ≥ cfgNameSize - 1 then .stopped
  else .run mode (.string (idx + 1)) m

def startStep (m : List Bool) (mode : CfgMode) (c : CfgByte) : CfgAuto :=
  if c = chEof then afterToken m mode .none
  else if c = chSpace ∨ c = chTab then .run mode .start m
  else if c = chNl then if mode.countNl then afterToken m mode .optEnd else .run mode .start m
  else if c = chSemi then afterToken m mode .optEnd
  else if c = chHash then .run mode .comment m
  else if c = chOpen then afterToken m mode .braceLeft
  else if c = chClose then afterToken m mode .braceRight
  else if c = chEqual then afterToken m mode .equal
  else if isValidChar c then stringPut m mode 0 c
  else .stopped

/-- The token that a string of `idx` bytes is. -/
def lengthToken (idx : Nat) : CfgToken := if idx = 0 then .bad else .string

def autoStep : CfgAuto → CfgByte → CfgAuto
  | .stopped, _ => .stopped
  | .run mode .start m, c => startStep m mode c
  | .run mode .comment m, c => if c = chNl then startStep m mode c else .run mode .comment m
  | .run mode (.quote idx) m, c =>
    if c = chEof then .stopped
    else if c = chQuote then .run mode (.string idx) m
    else if idx ≥ cfgNameSize - 1 then .stopped
    else .run mode (.quote (idx + 1)) m
  | .run mode (.string idx) m, c =>
    if c = chEof then afterToken m mode (lengthToken idx)
    else if isValidChar c then stringPut m mode idx c
    else
      match afterToken m mode (lengthToken idx) with
      | .run mode' _ m' => startStep m' mode' c
      | .stopped => .stopped

def CfgAuto.inComment : CfgAuto → Bool
  | .run _ .comment _ => true
  | _ => false

def endsIn (a : CfgAuto) (l : List CfgByte) : Bool := (l.foldl autoStep a).inComment

/-- The file ends in a comment that the parser gets to. -/
def endsInComment (mallocOk : List Bool) (bytes : List CfgByte) : Bool :=
  endsIn (.run .top .start mallocOk) bytes

variable {m : List Bool} {mode : CfgMode} {token : CfgToken} {c : CfgByte}
  {l : List CfgByte} {idx : Nat}

@[simp] theorem endsIn_cons (a : CfgAuto) : endsIn a (c :: l) = endsIn (autoStep a c) l := rfl

@[simp] theorem endsIn_stopped (l : List CfgByte) : endsIn .stopped l = false := by
  induction l with
  | nil => rfl
  | cons c l ih => exact ih

theorem afterToken_cases (m : List Bool) (mode : CfgMode) (token : CfgToken) :
    afterToken m mode token = .stopped ∨ ∃ mode' m', afterToken m mode token =
      .run mode' .start m' := by
  cases mode <;> simp only [afterToken] <;> split_ifs <;> simp

@[simp] theorem afterToken_bad : afterToken m mode .bad = .stopped := by
  cases mode <;> simp [afterToken]

@[simp] theorem afterToken_none : afterToken m mode .none = .stopped := by
  cases mode <;> simp [afterToken]

@[simp] theorem endsIn_afterToken_nil : endsIn (afterToken m mode token) [] = false := by
  rcases afterToken_cases m mode token with h | ⟨mode', m', h⟩
  · simp [h]
  · simp [h, endsIn, CfgAuto.inComment]

theorem endsIn_string_end (heof : c ≠ chEof) (hc : isValidChar c = false) :
    endsIn (.run mode (.string idx) m) (c :: l) = endsIn (afterToken m mode (lengthToken idx))
      (c :: l) := by
  rcases afterToken_cases m mode (lengthToken idx) with h | ⟨mode', m', h⟩
  · simp [autoStep, heof, hc, h]
  · simp [autoStep, heof, hc, h]

end LibTpa
