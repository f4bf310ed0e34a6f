import TypedLua.Compilation
import TypedLua.Proofs.Checking.Failures
import TypedLua.Proofs.Parsing.Erasure
import TypedLua.Proofs.Reading.Numerals
import TypedLua.Proofs.Reading.Places

/-!
# How compilations end

Every compilation ends with a result that says what became of the unit.
-/

namespace TypedLua

/-! ## The stages that read -/

namespace Parser

theorem lastDirective_eq (tokens : List Token) : lastDirective tokens = (tokens.filterMap directive?).getLast? := by
  induction tokens with
  | nil => rfl
  | cons t tokens ih =>
    rw [lastDirective_cons, ih]
    cases h : directive? t with
    | none => rw [List.filterMap_cons_none h, Option.or_none]
    | some on => rw [List.filterMap_cons_some h, List.getLast?_cons, Option.or_some]

theorem typecheck_of_parse
    (h : parse registry tokens = .ok chunk) : chunk.typecheck = lastDirective tokens := by
  rw [parse] at h
  split at h <;> cases h
  rfl

theorem parse_ne_outOfFuel (registry : String) (tokens : List Token) : parse registry tokens ≠ .error .outOfFuel := by
  have hcases := parse_cases registry tokens
  intro hparse
  rw [hparse] at hcases
  exact hcases.1 rfl

end Parser

theorem Target.unwritable_mem_of_generate (hparse : Parser.parse types tokens = .ok c)
    (hprep : c.prepare typecheck registry stem = .ok (c', checks))
    (h : generate c' = .error .unwritable) : .unwritable ∈ c'.obstacles := by
  have hfirst := (generate_error_iff (Generate.prepare_generates hparse hprep) .unwritable).1 h
  obtain ⟨obstacle, hobstacle, hfailure⟩ := Option.map_eq_some_iff.1 hfirst
  cases obstacle with
  | unwritable => exact List.mem_of_mem_head? hobstacle
  | functionType loc => cases hfailure
  | breakOutside loc => cases hfailure

/-- A number and its text cannot be turned into each other, in the source or in what the stages make of it. -/
inductive Number.TextError.ComesFrom (config : Config) (source : List Char) : Number.TextError → Prop
  | tooLong {digits : Nat} (h : Numeral.digitLimit < digits) : ComesFrom config source (.tooLong digits)
  | digit {error : Number.TextError} {c : Char} (herror : ∃ numeral, error = .whole numeral ∨ error = .fraction numeral)
      (hmem : c ∈ source) (hdigit : Text.isDigit c = true) (hdecimal : Text.isDecimal c = false) :
      ComesFrom config source error
  /-- The number that breaks the grammar has too many digits for the message. -/
  | message {tokens : List Token} {cause : Parser.ParseCause} {near : Token}
      (htokens : Token.tokenize source = .ok tokens)
      (hparse : Parser.parse config.registry tokens = .error (.invalid cause near))
      (hnear : near.kind.isWritable = false) : ComesFrom config source .unwritable
  | code {tokens : List Token} {chunk prepared : Chunk} {typecheck : Bool} {checks : Nat}
      (htokens : Token.tokenize source = .ok tokens) (hparse : Parser.parse config.registry tokens = .ok chunk)
      (hprep : chunk.prepare typecheck config.registry config.stem = .ok (prepared, checks))
      (hnumber : .unwritable ∈ prepared.obstacles) : ComesFrom config source .unwritable

theorem Token.comesFrom_of_tokenize
    (h : tokenize source = .error (.digits error)) : error.ComesFrom config source := by
  have hlined := tokensFrom_lined (skipFirstLine source)
  rw [show tokensFrom (skipFirstLine source) = _ from h] at hlined
  have hunreadable : Located (Cursor.start source) (.digits error) :=
    Located.mono hlined (reaches_skipFirstLine source)
  obtain ⟨digits, rfl, hdigits⟩ | ⟨hnumeral, c, hmem, hdigit, hdecimal⟩ := Unreadable.cases hunreadable
  · exact .tooLong hdigits
  · exact .digit hnumeral hmem hdigit hdecimal

namespace Compilation

/-! ## What a result keeps -/

/-- The chunks and the number of checks of a result are those that the stages make of the source. -/
structure Keeps (config : Config) (source : List Char) (c : Compilation) : Prop where
  chunk_iff : ∀ chunk, c.chunk = some chunk ↔
    ∃ tokens, Token.tokenize source = .ok tokens ∧ Parser.parse config.registry tokens = .ok chunk
  prepared_iff : ∀ prepared, c.prepared = some prepared ↔ ∃ chunk, c.chunk = some chunk ∧
    chunk.prepare c.typecheck config.registry config.stem = .ok (prepared, c.checks)
  typecheck : ∀ tokens, Token.tokenize source = .ok tokens → c.chunk.isSome = true →
    c.typecheck = ((tokens.filterMap Parser.directive?).getLast?).getD config.typecheck
  checks : c.typecheck = false → c.checks = 0

structure Tells (config : Config) (generate : Bool) (source : List Char) (c : Compilation) : Prop
    extends c.Keeps config source where
  success_iff_problemTexts : c.success = true ↔ c.problemTexts = []
  problemTexts_length : c.problemTexts.length ≤ 1
  success_iff : c.success = true ↔ ∃ prepared, c.prepared = some prepared ∧
    (generate = true → ∃ m, Target.generate prepared = .ok m)
  code : c.code ≠ "" → c.success = true ∧ generate = true
  cause : ∀ p ∈ c.problem, p.cause ≠ .tooDeep

/-- A compilation ends with a result, or with a number and its text that cannot be turned into each other. -/
def Contained (config : Config) (generate : Bool) (source : List Char) : Except Interruption Compilation → Prop
  | .ok c => c.Tells config generate source
  | .error i => i.error.ComesFrom config source

variable {config : Config} {generate : Bool} {source : List Char} {c : Compilation}

theorem Keeps.fail (h : c.Keeps config source) {p : Problem} (hcode : c.code = "") (hcause : p.cause ≠ .tooDeep)
    (hstopped : ∀ prepared, c.prepared = some prepared → generate = true ∧
      ∀ m, Target.generate prepared ≠ .ok m) : (c.fail stage p).Tells config generate source where
  toKeeps := ⟨h.chunk_iff, h.prepared_iff, h.typecheck, h.checks⟩
  success_iff_problemTexts := by simp [success, problemTexts, Compilation.fail]
  problemTexts_length := by simp [problemTexts, Compilation.fail]
  success_iff := by
    refine ⟨nofun, fun ⟨prepared, hprepared, hgenerates⟩ => ?_⟩
    obtain ⟨hgen, hnone⟩ := hstopped prepared hprepared
    obtain ⟨m, hm⟩ := hgenerates hgen
    exact absurd hm (hnone m)
  code hne := absurd hcode hne
  cause := by simpa [Compilation.fail] using hcause

theorem Keeps.succeed (h : c.Keeps config source) {prepared : Chunk} (hproblem : c.problem = none)
    (hcode : c.code ≠ "" → generate = true) (hprepared : c.prepared = some prepared)
    (hgenerates : generate = true → ∃ m, Target.generate prepared = .ok m) : c.Tells config generate source where
  toKeeps := h
  success_iff_problemTexts := by simp [success, problemTexts, hproblem]
  problemTexts_length := by simp [problemTexts, hproblem]
  success_iff := ⟨fun _ => ⟨prepared, hprepared, hgenerates⟩, fun _ => by simp [success, hproblem]⟩
  code hne := ⟨by simp [success, hproblem], hcode hne⟩
  cause := by simp [hproblem]

/-! ## The stages -/

theorem generating_contained (h : c.Keeps config source) {prepared : Chunk} (hprepared : c.prepared = some prepared)
    (hproblem : c.problem = none) (hcode : c.code = "") :
    Contained config true source (c.generating config prepared) := by
  rw [generating]
  have hnote : (c.note (.generating c.file)).Keeps config source :=
    ⟨h.chunk_iff, h.prepared_iff, h.typecheck, h.checks⟩
  split
  · next cause loc hgen =>
    refine hnote.fail hcode nofun fun other hother => ⟨rfl, ?_⟩
    cases hprepared.symm.trans hother
    simp [hgen]
  · next hgen =>
    obtain ⟨chunk, hchunk, hprep⟩ := (h.prepared_iff prepared).1 hprepared
    obtain ⟨tokens, htokens, hparse⟩ := (h.chunk_iff chunk).1 hchunk
    exact .code htokens hparse hprep (Target.unwritable_mem_of_generate hparse hprep hgen)
  · next m hgen =>
    exact Keeps.succeed ⟨h.chunk_iff, h.prepared_iff, h.typecheck, h.checks⟩ hproblem (fun _ => rfl) hprepared
      fun _ => ⟨m, hgen⟩

structure IsFresh (c : Compilation) : Prop where
  prepared : c.prepared = none
  checks : c.checks = 0
  problem : c.problem = none
  code : c.code = ""

theorem Keeps.of_chunk_none (h : c.IsFresh) (hchunk : c.chunk = none)
    (hread : ∀ tokens chunk, Token.tokenize source = .ok tokens →
      Parser.parse config.registry tokens ≠ .ok chunk) : c.Keeps config source where
  chunk_iff := by simpa [hchunk] using fun chunk tokens htokens => hread tokens chunk htokens
  prepared_iff := by simp [hchunk, h.prepared]
  typecheck := by simp [hchunk]
  checks _ := h.checks

theorem Keeps.of_chunk {tokens : List Token} {chunk : Chunk} (htokens : Token.tokenize source = .ok tokens)
    (hparse : Parser.parse config.registry tokens = .ok chunk) (hchunk : c.chunk = some chunk)
    (htypecheck : c.typecheck = config.resolve chunk.typecheck)
    (hprepared : match chunk.prepare c.typecheck config.registry config.stem with
      | .ok (prepared, checks) => c.prepared = some prepared ∧ c.checks = checks
      | .error _ => c.prepared = none ∧ c.checks = 0) : c.Keeps config source where
  chunk_iff := by simp [hchunk, htokens, hparse]
  prepared_iff := by
    split at hprepared
    · next prepared checks hprep => simp [hchunk, hprep, hprepared]
    · next hprep => simp [hchunk, hprep, hprepared]
  typecheck tokens' htokens' _ := by
    cases htokens.symm.trans htokens'
    rw [htypecheck, Config.resolve, Parser.typecheck_of_parse hparse, Parser.lastDirective_eq]
  checks hoff := by
    rw [hoff] at hprepared
    exact hprepared.2

theorem exists_log_eq (directive : Option Bool) (typecheck : Bool) (c : Compilation) : ∃ log,
    (if typecheck then noteDirective directive c else (noteDirective directive c).note .erasing) = { c with log } := by
  cases directive <;> cases typecheck <;> exact ⟨_, rfl⟩

theorem preparing_contained {tokens : List Token} {chunk : Chunk} (htokens : Token.tokenize source = .ok tokens)
    (hparse : Parser.parse config.registry tokens = .ok chunk) (h : c.IsFresh) :
    Contained config generate source (c.preparing config generate chunk) := by
  unfold preparing
  generalize htypecheck : config.resolve chunk.typecheck = typecheck
  obtain ⟨log, hlog⟩ := exists_log_eq chunk.typecheck typecheck { c with chunk := some chunk, typecheck }
  simp only [hlog]
  split
  · next reason hprep =>
    refine (Keeps.of_chunk htokens hparse rfl htypecheck.symm ?_).fail h.code nofun ?_
    · simp [hprep, h.prepared, h.checks]
    · simp [h.prepared]
  · next prepared checks hprep =>
    -- Whether the number of checks is noted does not matter either.
    have hrest (d : Compilation) (hchunk : d.chunk = some chunk) (hon : d.typecheck = typecheck)
        (hproblem : d.problem = none) (hcode : d.code = "") :
        Contained config generate source (if generate then
          { d with prepared := some prepared, checks }.generating config prepared
          else .ok { d with prepared := some prepared, checks }) := by
      have hkeeps : { d with prepared := some prepared, checks }.Keeps config source :=
        .of_chunk htokens hparse hchunk (hon.trans htypecheck.symm) (by simp [hon, hprep])
      split
      · next hgen => exact hgen ▸ generating_contained hkeeps rfl hproblem hcode
      · next hgen =>
        exact hkeeps.succeed hproblem (absurd hcode) rfl (absurd · hgen)
    cases typecheck with
    | true =>
      exact hrest ({ c with chunk := some chunk, typecheck := true, log }.note (.inserted checks)) rfl rfl
        h.problem h.code
    | false => exact hrest { c with chunk := some chunk, typecheck := false, log } rfl rfl h.problem h.code

theorem parsing_contained (htokens : Token.tokenize source = .ok tokens) (file : String) :
    Contained config generate source ((start file).parsing config generate source tokens) := by
  rw [parsing, readChunk]
  cases hparse : Parser.parse config.registry tokens with
  | ok chunk => exact preparing_contained htokens hparse ⟨rfl, rfl, rfl, rfl⟩
  | error failure =>
    have hkeeps : Keeps config source ((start file).note (.parsing file tokens.length)) := by
      refine .of_chunk_none ⟨rfl, rfl, rfl, rfl⟩ rfl fun tokens' chunk htokens' => ?_
      cases htokens.symm.trans htokens'
      simp [hparse]
    cases failure with
    | malformed reason => exact hkeeps.fail rfl nofun nofun
    | outOfFuel => exact absurd hparse (Parser.parse_ne_outOfFuel _ _)
    | invalid cause near =>
      cases hwritable : near.kind.isWritable with
      | true =>
        simp only [Problem.ofParse, hwritable, if_true]
        exact hkeeps.fail rfl nofun nofun
      | false =>
        simp only [Problem.ofParse, hwritable]
        exact .message htokens hparse hwritable

end Compilation

/-- Every compilation ends with a result that says what became of the unit, unless a number and its text cannot
be turned into each other. -/
theorem compile_contained (config : Config) (file : String) (generate : Bool) (source : String) :
    Compilation.Contained config generate source.toList (compile config file generate source) := by
  rw [compile, readTokens]
  cases htokens : Token.tokenize source.toList with
  | ok tokens => exact Compilation.parsing_contained htokens file
  | error e =>
    cases e with
    | digits error => exact Token.comesFrom_of_tokenize htokens
    | invalid cause position reached =>
      refine (Compilation.Keeps.of_chunk_none ⟨rfl, rfl, rfl, rfl⟩ rfl ?_).fail rfl nofun nofun
      simp [htokens]

end TypedLua
