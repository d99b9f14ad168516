/- LibTpa/Cfg/Parse
   digest: The configuration file: tokens, options and sections, read byte by byte. -/

import LibTpa.Lib.Reader

/-!
Every loop of the parser takes a number of rounds; without a result they were too few. A read
at the end of the file gives `EOF`, which as a `char` is the byte `0xff`.
-/

set_option autoImplicit false

namespace LibTpa

open LibTpa.Lib

abbrev CfgByte := BitVec 8

def cfgNameSize : Nat := 128

def chEof : CfgByte := 0xff
def chTab : CfgByte := 0x09
def chNl : CfgByte := 0x0a
def chSpace : CfgByte := 0x20
def chQuote : CfgByte := 0x22
def chHash : CfgByte := 0x23
def chSemi : CfgByte := 0x3b
def chEqual : CfgByte := 0x3d
def chOpen : CfgByte := 0x7b
def chClose : CfgByte := 0x7d

inductive CfgToken
  | none
  | braceLeft
  | braceRight
  | string
  | equal
  | optEnd
  | bad
  | consumed
  deriving DecidableEq

structure CfgOpt where
  name : List CfgByte := []
  val : List CfgByte := []
  deriving DecidableEq

structure CfgSection where
  name : List CfgByte := []
  opts : List CfgOpt := []
  deriving DecidableEq

/-- `struct cfg_ctx` with `tpa_cfg.cfg_sections`; `mallocOk` is what `malloc` answers. The index
into the token is the length of `tokenName`. -/
structure CfgCtx where
  file : Reader CfgByte
  token : CfgToken := .consumed
  tokenName : List CfgByte := []
  section_ : CfgSection := {}
  opt : CfgOpt := {}
  sections : List CfgSection := []
  mallocOk : List Bool := []

def fgetc (ctx : CfgCtx) : CfgByte × CfgCtx :=
  let r := ctx.file.next
  (r.1.getD chEof, { ctx with file := r.2 })

def ungetc (ctx : CfgCtx) : CfgCtx := { ctx with file := ctx.file.back }

/-- `is_valid_char`; `strchr` also finds the end of the string. -/
def isValidChar (c : CfgByte) : Bool :=
  decide (c ∉ [chTab, chNl, chOpen, chClose, chEqual, chSpace, chSemi, 0])

def tokenPutChar (ctx : CfgCtx) (c : CfgByte) : Bool × CfgCtx :=
  if ctx.tokenName.length ≥ cfgNameSize - 1 then (false, ctx)
  else (true, { ctx with tokenName := ctx.tokenName ++ [c] })

def matchQuotedString : Nat → CfgCtx → Option (Bool × CfgCtx)
  | 0, _ => none
  | fuel + 1, ctx =>
    let (c, ctx) := fgetc ctx
    if c = chEof then some (false, ctx)
    else if c = chQuote then some (true, ctx)
    else
      let (ok, ctx) := tokenPutChar ctx c
      if ok then matchQuotedString fuel ctx else some (false, ctx)

def stringToken (ctx : CfgCtx) : CfgToken := if ctx.tokenName = [] then .bad else .string

/-- The loop of `get_string_token`. -/
def stringLoop : Nat → CfgCtx → CfgByte → Option (CfgToken × CfgCtx)
  | 0, _, _ => none
  | fuel + 1, ctx, c =>
    match if c = chQuote then matchQuotedString fuel ctx else some (tokenPutChar ctx c) with
    | none => none
    | some (false, ctx) => some (.bad, ctx)
    | some (true, ctx) =>
      let (c, ctx) := fgetc ctx
      if c = chEof then some (stringToken ctx, ctx)
      else if !isValidChar c then some (stringToken ctx, ungetc ctx)
      else stringLoop fuel ctx c

def getStringToken (fuel : Nat) (ctx : CfgCtx) (c : CfgByte) : Option (CfgToken × CfgCtx) :=
  if !isValidChar c then some (.bad, ctx) else stringLoop fuel { ctx with tokenName := [] } c

/-- The loop over a comment: `while (c != '\n') c = fgetc(ctx->file)`. -/
def commentLoop : Nat → CfgCtx → CfgByte → Option CfgCtx
  | 0, _, _ => none
  | fuel + 1, ctx, c =>
    if c = chNl then some ctx
    else
      let (c, ctx) := fgetc ctx
      commentLoop fuel ctx c

/-- The loop of `token_do_peek_type`. -/
def peekLoop (countNl : Bool) : Nat → CfgCtx → Option (CfgToken × CfgCtx)
  | 0, _ => none
  | fuel + 1, ctx =>
    let (c, ctx) := fgetc ctx
    if c = chEof then some (.none, ctx)
    else if c = chSpace ∨ c = chTab then peekLoop countNl fuel ctx
    else if c = chNl then if countNl then some (.optEnd, ctx) else peekLoop countNl fuel ctx
    else if c = chSemi then some (.optEnd, ctx)
    else if c = chHash then
      match commentLoop fuel ctx c with
      | none => none
      | some ctx => peekLoop countNl fuel (if countNl then ungetc ctx else ctx)
    else if c = chOpen then some (.braceLeft, { ctx with tokenName := [c] })
    else if c = chClose then some (.braceRight, { ctx with tokenName := [c] })
    else if c = chEqual then some (.equal, { ctx with tokenName := [c] })
    else getStringToken fuel ctx c

def tokenDoPeekType (fuel : Nat) (ctx : CfgCtx) (countNl : Bool) : Option (CfgToken × CfgCtx) :=
  if ctx.token ≠ .consumed then some (ctx.token, ctx)
  else (peekLoop countNl fuel { ctx with tokenName := [] }).map fun r =>
    (r.1, { r.2 with token := r.1 })

def tokenDoGetType (fuel : Nat) (ctx : CfgCtx) (countNl : Bool) : Option (CfgToken × CfgCtx) :=
  (tokenDoPeekType fuel ctx countNl).map fun r => (r.1, { r.2 with token := .consumed })

/-- A C string in a buffer: `tpa_snprintf(buf, size, "%s", s)`. -/
def cstrCopy (size : Nat) (s : List CfgByte) : List CfgByte := (s.takeWhile (· ≠ 0)).take (size - 1)

def cfgFileMatchSectionName (fuel : Nat) (ctx : CfgCtx) : Option (Bool × CfgCtx) :=
  (tokenDoGetType fuel ctx false).map fun (token, ctx) =>
    if token ≠ .string then (false, ctx)
    else (true,
      { ctx with section_ := { ctx.section_ with name := cstrCopy cfgNameSize ctx.tokenName } })

def cfgFileMatchBrace (fuel : Nat) (ctx : CfgCtx) (type : CfgToken) : Option (Bool × CfgCtx) :=
  (tokenDoGetType fuel ctx false).map fun (token, ctx) => (decide (token = type), ctx)

def cfgFileMatchOptName (fuel : Nat) (ctx : CfgCtx) : Option (Bool × CfgCtx) :=
  (tokenDoGetType fuel ctx false).map fun (token, ctx) =>
    if token ≠ .string then (false, ctx)
    else (true, { ctx with opt := { ctx.opt with name := cstrCopy cfgNameSize ctx.tokenName } })

def cfgFileMatchEqual (fuel : Nat) (ctx : CfgCtx) : Option (Bool × CfgCtx) :=
  (tokenDoGetType fuel ctx false).map fun (token, ctx) => (decide (token = .equal), ctx)

/-- The loop of `cfg_file_match_opt_val`; `len` is the length of the value so far. -/
def optValLoop : Nat → CfgCtx → Option (Bool × CfgCtx)
  | 0, _ => none
  | fuel + 1, ctx =>
    match tokenDoGetType fuel ctx true with
    | none => none
    | some (token, ctx) =>
      if token = .optEnd then
        if ctx.opt.val = [] then some (false, ctx)
        else some (true, { ctx with opt := { ctx.opt with val := ctx.opt.val.dropLast } })
      else if token ≠ .string then some (false, ctx)
      else
        let val := ctx.opt.val ++ ctx.tokenName.takeWhile (· ≠ 0) ++ [chSpace]
        optValLoop fuel { ctx with opt := { ctx.opt with val := val.take (cfgNameSize - 1) } }

def cfgFileMatchOptVal (fuel : Nat) (ctx : CfgCtx) : Option (Bool × CfgCtx) := optValLoop fuel ctx

/-- `cfg_opt_insert`: an option that is there gets the new value, another one is put in front. -/
def cfgOptInsert (opts : List CfgOpt) (new : CfgOpt) : List CfgOpt :=
  match opts.findIdx? (fun o => decide (o.name = new.name)) with
  | none => new :: opts
  | some i => opts.modify i fun o => { o with val := new.val }

/-- The failing or passing chain of the three matches of an option. -/
def matchOption (fuel : Nat) (ctx : CfgCtx) : Option (Bool × CfgCtx) :=
  (cfgFileMatchOptName fuel ctx).bind fun (ok, ctx) =>
    if !ok then some (false, ctx)
    else (cfgFileMatchEqual fuel ctx).bind fun (ok, ctx) =>
      if !ok then some (false, ctx) else cfgFileMatchOptVal fuel ctx

def CfgCtx.malloc (ctx : CfgCtx) : Bool × CfgCtx :=
  (ctx.mallocOk.headD true, { ctx with mallocOk := ctx.mallocOk.tail })

def cfgFileMatchOptions : Nat → CfgCtx → Option (Bool × CfgCtx)
  | 0, _ => none
  | fuel + 1, ctx =>
    match tokenDoPeekType fuel ctx false with
    | none => none
    | some (token, ctx) =>
      if token = .braceRight then some (true, ctx)
      else
        let (ok, ctx) := ctx.malloc
        if !ok then some (false, ctx)
        else
          match matchOption fuel { ctx with opt := {} } with
          | none => none
          | some (false, ctx) => some (false, ctx)
          | some (true, ctx) =>
            cfgFileMatchOptions fuel
              { ctx with
                section_ := { ctx.section_ with opts := cfgOptInsert ctx.section_.opts ctx.opt } }

def cfgSectionInsert (sections : List CfgSection) (new : CfgSection) : List CfgSection :=
  match sections.findIdx? (fun s => decide (s.name = new.name)) with
  | none => new :: sections
  | some i => sections.modify i fun s => { s with opts := new.opts.foldl cfgOptInsert s.opts }

/-- The chain of matches of a section. -/
def matchSectionParts (fuel : Nat) (ctx : CfgCtx) : Option (Bool × CfgCtx) :=
  (cfgFileMatchSectionName fuel ctx).bind fun (ok, ctx) =>
    if !ok then some (false, ctx)
    else (cfgFileMatchBrace fuel ctx .braceLeft).bind fun (ok, ctx) =>
      if !ok then some (false, ctx)
      else (cfgFileMatchOptions fuel ctx).bind fun (ok, ctx) =>
        if !ok then some (false, ctx) else cfgFileMatchBrace fuel ctx .braceRight

def cfgFileMatchSection (fuel : Nat) (ctx : CfgCtx) : Option (Bool × CfgCtx) :=
  let (ok, ctx) := ctx.malloc
  if !ok then some (false, ctx)
  else
    (matchSectionParts fuel { ctx with section_ := {} }).map fun (ok, ctx) =>
      (ok, if ctx.section_.opts = [] then ctx
        else { ctx with sections := cfgSectionInsert ctx.sections ctx.section_ })

/-- The loop of `cfg_file_parse`. -/
def parseLoop : Nat → CfgCtx → Option (Int × CfgCtx)
  | 0, _ => none
  | fuel + 1, ctx =>
    match tokenDoPeekType fuel ctx false with
    | none => none
    | some (token, ctx) =>
      if token = .none then some (0, ctx)
      else
        match cfgFileMatchSection fuel ctx with
        | none => none
        | some (false, ctx) => some (-1, ctx)
        | some (true, ctx) => parseLoop fuel ctx

def cfgFileParse (fuel : Nat) (bytes : List CfgByte) (sections : List CfgSection)
    (mallocOk : List Bool) :
    Option (Int × CfgCtx) :=
  parseLoop fuel { file := { data := bytes }, sections := sections, mallocOk := mallocOk }

end LibTpa
