import TypedLua.Proofs.Data.Steps
import TypedLua.Proofs.Parsing.Canonical
import Mathlib.Tactic.Common

/-!
# Steps of the parser

What the routines do on tokens whose first kind is known, and what may stand behind an expression.
-/

namespace TypedLua.Parser

/-! ## Running routines -/

variable {ts rest : List Token} {k : Token.Kind}

theorem map_run {α β : Type} {p : Parse α} {f : α → β} {a : α} (h : p ts = .ok (a, rest)) :
    (f <$> p) ts = .ok (f a, rest) := by
  rw [map_eq_pure_bind, bind_run h]
  rfl

theorem current_run (ts : List Token) : current ts = .ok (head ts, ts) := rfl

theorem get_run (ts : List Token) : (get : Parse (List Token)) ts = .ok (ts, ts) := rfl

theorem advance_run (h : k ≠ .eof) (p : Position) (ts : List Token) : advance (⟨k, p⟩ :: ts) = .ok (⟨k, p⟩, ts) := by
  show Except.ok (_, tail (⟨k, p⟩ :: ts)) = _
  rw [tail, if_neg h]
  rfl

theorem check_run (k : Token.Kind) (ts : List Token) : check k ts = .ok (decide ((head ts).kind = k), ts) := rfl

theorem accept_hit (h : k ≠ .eof) (p : Position) (ts : List Token) : accept k (⟨k, p⟩ :: ts) = .ok (true, ts) := by
  rw [accept, bind_run (check_run k _)]
  simp only [head, decide_true, if_true]
  exact bind_run (advance_run h p ts)

theorem accept_miss (h : (head ts).kind ≠ k) : accept k ts = .ok (false, ts) := by
  rw [accept, bind_run (check_run k _), decide_eq_false h]
  rfl

theorem expect_hit (h : k ≠ .eof) (cause : ParseCause) (p : Position) (ts : List Token) :
    expect k cause (⟨k, p⟩ :: ts) = .ok (⟨k, p⟩, ts) := by
  rw [expect, bind_run (check_run k _)]
  simp only [head, decide_true, if_true]
  exact advance_run h p ts

theorem expectName_hit (x : String) (cause : ParseCause) (p : Position) (ts : List Token) :
    expectName cause (⟨.name x, p⟩ :: ts) = .ok (x, ts) := by
  rw [expectName, bind_run (current_run _)]
  exact bind_run (advance_run (by simp) p ts)

/-! ## Spelled tokens

Tokens spell a list of kinds if those are their kinds; where they stand does not matter. -/

theorem spells_cons (h : ts.map Token.kind = k :: ks) :
    ∃ p ts', ts = ⟨k, p⟩ :: ts' ∧ ts'.map Token.kind = ks := by
  obtain ⟨⟨_, p⟩, ts', rfl, rfl, htail⟩ := List.map_eq_cons_iff.1 h
  exact ⟨p, ts', rfl, htail⟩

theorem spells_append (h : ts.map Token.kind = ks ++ ls) :
    ∃ ts1 ts2, ts = ts1 ++ ts2 ∧ ts1.map Token.kind = ks ∧ ts2.map Token.kind = ls :=
  List.map_eq_append_iff.1 h

theorem spells_singleton (h : ts.map Token.kind = [k]) : ∃ p, ts = [⟨k, p⟩] := by
  obtain ⟨p, ts', rfl, htail⟩ := spells_cons h
  rw [List.map_eq_nil_iff.1 htail]
  exact ⟨p, rfl⟩

/-! ## What stands behind an expression -/

def startsSuffix : Token.Kind → Bool
  | .symbol .dot | .symbol .lbracket | .symbol .colon | .symbol .lparen | .symbol .lbrace
  | .string _ => true
  | _ => false

def endsExpression (k : Token.Kind) : Bool := !startsSuffix k && (binaryOp? k).isNone

/-- The tokens do not start with an operator that binds tighter than a level. -/
def Stops (level : Nat) (rest : List Token) : Prop := ∀ op l, binaryOp? (head rest).kind = some (op, l) → l ≤ level

/-- The highest level of an operator that an expression leaves alone behind its right edge. -/
def tight : Expr → Nat
  | .unary _ _ operand => min unaryLevel (tight operand)
  | .binary _ _ op right => min (if isRightAssociative op then op.level - 1 else op.level) (tight right)
  | _ => 9

def Follows (e : Expr) (rest : List Token) : Prop := startsSuffix (head rest).kind = false ∧ Stops (tight e) rest

theorem stops_of_ends (h : endsExpression (head rest).kind = true) (level : Nat) : Stops level rest := by
  intro op l hop
  rw [endsExpression, hop] at h
  simp at h

theorem follows_of_ends (h : endsExpression (head rest).kind = true) (e : Expr) : Follows e rest := by
  refine ⟨?_, stops_of_ends h _⟩
  rw [endsExpression, Bool.and_eq_true] at h
  simpa using h.1

theorem level_op_le (op : BinaryOp) : 1 ≤ op.level ∧ op.level ≤ 8 := by
  cases op <;> decide

theorem level_pos (e : Expr) : 0 < e.level := by
  cases e with
  | binary _ _ op _ => exact (level_op_le op).1
  | _ => simp [Expr.level, unaryLevel]

/-- A canonical expression leaves alone an operator that it is a left operand of, unless the operator
is a power. -/
theorem le_tight (hl : l ≤ 7) :
    ∀ e : Expr, e.canonical inType varargs = true → (l < e.level ∨ (l = e.level ∧ l ≠ 4)) → l ≤ tight e
  | .unary _ _ operand, hc, _ => by
    simp only [Expr.canonical, Bool.and_eq_true, decide_eq_true_eq] at hc
    rw [tight, Nat.le_min]
    refine ⟨hl, le_tight hl operand hc.2 ?_⟩
    rcases Nat.lt_or_ge l operand.level with h | h
    · exact Or.inl h
    · have : unaryLevel = 7 := rfl
      exact Or.inr (by omega)
  | .binary _ left op right, hc, hlevel => by
    simp only [Expr.canonical, Bool.and_eq_true, Expr.fitsRight, Bool.or_eq_true, decide_eq_true_eq, beq_iff_eq] at hc
    obtain ⟨⟨⟨_, hfit⟩, _⟩, hright⟩ := hc
    have hr := BinaryOp.isRightAssociative_iff op
    simp only [Expr.level] at hlevel
    rw [tight, Nat.le_min]
    constructor
    · split
      · next h => rcases hr.1 h with h | h <;> omega
      · omega
    · apply le_tight hl right hright
      rcases hfit with (hu | hlt) | ⟨heq, hassoc⟩
      · -- the right operand is unary, whose level no operator has
        have : right.level = 7 := by
          cases right with
          | unary => rfl
          | _ => simp [Expr.isUnary] at hu
        omega
      · omega
      · rcases hr.1 hassoc with h | h <;> omega
  | .nil _, _, _ | .bool .., _, _ | .number .., _, _ | .string .., _, _ | .vararg _, _, _
  | .name .., _, _ | .function _, _, _ | .signature .., _, _ | .table .., _, _ | .call .., _, _
  | .method .., _, _ | .index .., _, _ | .paren .., _, _ | .block .., _, _ => by
    simp only [tight]
    omega

theorem level_le_tight {e : Expr}
    (hc : e.canonical inType varargs = true) (hfit : e.fitsLeft op = true) : op.level ≤ tight e := by
  simp only [Expr.fitsLeft, Bool.or_eq_true, decide_eq_true_eq, Bool.and_eq_true, beq_iff_eq,
    Bool.not_eq_true'] at hfit
  have hassoc := BinaryOp.isRightAssociative_iff op
  by_cases h8 : op.level = 8
  · -- only what takes no operator itself is a base of a power
    have hlevel : 8 < e.level := by
      rcases hfit with h | ⟨_, h⟩
      · omega
      · rw [hassoc.2 (Or.inr h8)] at h
        exact absurd h (by simp)
    cases e with
    | unary _ _ operand => exact absurd hlevel (by simp [Expr.level, unaryLevel])
    | binary _ _ op' _ => exact absurd hlevel (by have := (level_op_le op').2; simp [Expr.level]; omega)
    | _ => simp only [tight]; omega
  · have h7 : op.level ≤ 7 := by
      have := (level_op_le op).2
      omega
    apply le_tight h7 e hc
    rcases hfit with h | ⟨h, hn⟩
    · exact Or.inl h
    · refine Or.inr ⟨h, fun h4 => ?_⟩
      rw [hassoc.2 (Or.inl h4)] at hn
      exact absurd hn (by simp)

theorem climb_stop {ctx : Context} {m level : Nat} (hm : 1 ≤ m) (h : Stops level rest) (e : Expr) :
    climb ctx m level e rest = .ok (e, rest) := by
  obtain ⟨m, rfl⟩ : ∃ k, m = k + 1 := ⟨m - 1, by omega⟩
  rw [climb, bind_run (current_run _)]
  cases hop : binaryOp? (head rest).kind with
  | none => rfl
  | some found =>
    show (if found.2 ≤ level then pure e else _ : Parse Expr) rest = _
    rw [if_pos (h found.1 found.2 hop)]
    rfl

theorem suffixes_stop {ctx : Context} {m : Nat} (hm : 1 ≤ m) (h : startsSuffix (head rest).kind = false) (e : Expr) :
    suffixes ctx m e rest = .ok (e, rest) := by
  obtain ⟨m, rfl⟩ : ∃ k, m = k + 1 := ⟨m - 1, by omega⟩
  rw [suffixes, bind_run (current_run _)]
  generalize (head rest).kind = k at h
  cases k with
  | string => exact absurd h (by simp [startsSuffix])
  | symbol s =>
    cases s with
    | dot | lbracket | colon | lparen | lbrace => exact absurd h (by simp [startsSuffix])
    | _ => rfl
  | _ => rfl

/-! ## Routines on spelled tokens -/

theorem head_kind_append (ts rest : List Token) :
    (head (ts ++ rest)).kind = (ts.map Token.kind).headD (head rest).kind := by
  cases ts <;> rfl

/-- On tokens that spell `ks`, in front of a token that satisfies `H`, the routine reads those
tokens, and what it delivers has a property. -/
def Recovers {α : Type} (n depth : Nat) (H : Token.Kind → Prop) (ks : List Token.Kind) (P : α → Prop)
    (p : Parse α) : Prop :=
  ∀ ts rest : List Token, ts.map Token.kind = ks → 16 * ts.length + depth ≤ n → H (head rest).kind →
    ∃ a, P a ∧ p (ts ++ rest) = .ok (a, rest)

namespace Recovers

variable {α β : Type} {n depth depth' : Nat} {H H' : Token.Kind → Prop} {k : Token.Kind}
  {ks ls : List Token.Kind} {P : α → Prop} {Q : β → Prop}

theorem pure {a : α} (ha : P a) : Recovers n depth H [] P (pure a) := by
  intro ts rest hts _ _
  rw [List.map_eq_nil_iff.1 hts]
  exact ⟨a, ha, rfl⟩

theorem step {p : Nat → Parse α} (h : ∀ n, Recovers n depth H ks P (p (n + 1))) (n : Nat) :
    Recovers n (depth + 1) H ks P (p n) := by
  intro ts rest hts hn hrest
  obtain ⟨n, rfl⟩ : ∃ k, n = k + 1 := ⟨n - 1, by omega⟩
  exact h n ts rest hts (by omega) hrest

theorem call {p : Parse α} (h : Recovers n depth' H' ks P p) (hdepth : depth'.ble depth = true)
    (hH : ∀ k, H k → H' k) : Recovers n depth H ks P p := by
  rw [Nat.ble_eq] at hdepth
  exact fun ts rest hts hn hrest => h ts rest hts (by omega) (hH _ hrest)

theorem deeper (h : Recovers (n + 1) (depth + 1) H ks P p) : Recovers n depth H ks P p :=
  fun ts rest hts hn => h ts rest hts (by omega)

/-- Two routines one after the other; the depth that the tokens of the first one are good for is left to the second
one. -/
theorem bind_of {f : α → Parse β} (hmore : more ≤ 16 * ks.length)
    (hp : Recovers n depth' H' ks P p) (hdepth : depth'.ble depth = true) (hnext : ∀ k, H k → H' (ls.headD k))
    (hf : ∀ a, P a → Recovers n (depth + more) H ls Q (f a)) : Recovers n depth H (ks ++ ls) Q (p >>= f) := by
  rw [Nat.ble_eq] at hdepth
  intro ts rest hts hn hrest
  obtain ⟨ts1, ts2, rfl, hts1, hts2⟩ := spells_append hts
  have hlen : ts1.length = ks.length := by rw [← hts1, List.length_map]
  rw [List.length_append] at hn
  -- The first routine must stop at what the second one reads, or behind it if that is nothing.
  have hnext' : H' (head (ts2 ++ rest)).kind := by
    rw [head_kind_append, hts2]
    exact hnext _ hrest
  obtain ⟨a, ha, hrun⟩ := hp ts1 (ts2 ++ rest) hts1 (by omega) hnext'
  obtain ⟨b, hb, hrest'⟩ := hf a ha ts2 rest hts2 (by omega) hrest
  exact ⟨b, hb, by rw [List.append_assoc, bind_run hrun, hrest']⟩

theorem bind {p : Parse α} {f : α → Parse β} (hp : Recovers n depth' H' ks P p)
    (hdepth : depth'.ble depth = true) (hnext : ∀ k, H k → H' (ls.headD k))
    (hf : ∀ a, P a → Recovers n depth H ls Q (f a)) : Recovers n depth H (ks ++ ls) Q (p >>= f) :=
  bind_of (Nat.zero_le _) hp hdepth hnext hf

theorem bind_last {f : α → Parse β} (hp : Recovers n depth' H' ks P p)
    (hdepth : depth'.ble depth = true) (hH : ∀ k, H k → H' k)
    (hf : ∀ a, P a → Recovers n depth H [] Q (f a)) : Recovers n depth H ks Q (p >>= f) := by
  have h := bind hp hdepth hH hf
  rwa [List.append_nil] at h

theorem map {g : α → β} (hp : Recovers n depth H ks P p) (hQ : ∀ a, P a → Q (g a)) :
    Recovers n depth H ks Q (g <$> p) := by
  intro ts rest hts hn hrest
  obtain ⟨a, ha, hrun⟩ := hp ts rest hts hn hrest
  exact ⟨g a, hQ a ha, map_run hrun⟩

theorem current {f : Token → Parse β} (h : ∀ p, Recovers n depth H (k :: ks) Q (f ⟨k, p⟩)) :
    Recovers n depth H (k :: ks) Q (current >>= f) := by
  intro ts rest hts hn hrest
  obtain ⟨p, ts', rfl, -⟩ := spells_cons hts
  exact h p _ rest hts hn hrest

theorem peek {f : Token → Parse β} (h : ∀ t k, H k → t.kind = ks.headD k → Recovers n depth H ks Q (f t)) :
    Recovers n depth H ks Q (Parser.current >>= f) := by
  intro ts rest hts hn hrest
  have hhead : (head (ts ++ rest)).kind = ks.headD (head rest).kind := by rw [head_kind_append, hts]
  exact h _ _ hrest hhead ts rest hts hn hrest

theorem token {f : α → Parse β} {a : Position → α} (hp : ∀ q ts, p (⟨k, q⟩ :: ts) = .ok (a q, ts))
    (h : ∀ q, Recovers n (depth + 16) H ks Q (f (a q))) : Recovers n depth H (k :: ks) Q (p >>= f) := by
  intro ts rest hts hn hrest
  obtain ⟨q, ts, rfl, htail⟩ := spells_cons hts
  rw [List.length_cons] at hn
  obtain ⟨b, hb, hrun⟩ := h q ts rest htail (by omega) hrest
  exact ⟨b, hb, by rw [List.cons_append, bind_run (hp q _), hrun]⟩

theorem advance {f : Token → Parse β} (hk : (k == .eof) = false)
    (h : ∀ p, Recovers n (depth + 16) H ks Q (f ⟨k, p⟩)) : Recovers n depth H (k :: ks) Q (advance >>= f) :=
  token (advance_run (ne_of_beq_false hk)) h

theorem expect {f : Token → Parse β} (hk : (k == .eof) = false)
    (h : ∀ p, Recovers n (depth + 16) H ks Q (f ⟨k, p⟩)) : Recovers n depth H (k :: ks) Q (expect k cause >>= f) :=
  token (expect_hit (ne_of_beq_false hk) cause) h

theorem expectName {f : String → Parse β}
    (h : Recovers n (depth + 16) H ks Q (f x)) : Recovers n depth H (.name x :: ks) Q (expectName cause >>= f) :=
  token (expectName_hit x cause) fun _ => h

theorem accept (hk : (k == .eof) = false) (h : Recovers n (depth + 16) H ks Q p) :
    Recovers n depth H (k :: ks) Q (accept k >>= fun found => if found then p else q) :=
  token (accept_hit (ne_of_beq_false hk)) fun _ => h

theorem looked {look : Parse Bool} {b : Bool} {K : Token.Kind → Prop} (hk : ∀ k', H k' → K (ks.headD k'))
    (hlook : ∀ ts, K (head ts).kind → look ts = .ok (b, ts)) (h : Recovers n depth H ks Q (if b then p else q)) :
    Recovers n depth H ks Q (look >>= fun found => if found then p else q) := by
  intro ts rest hts hn hrest
  obtain ⟨b, hb, hrun⟩ := h ts rest hts hn hrest
  have hhead : K (head (ts ++ rest)).kind := by
    rw [head_kind_append, hts]
    exact hk _ hrest
  exact ⟨b, hb, by rw [bind_run (hlook _ hhead)]; exact hrun⟩

theorem refuse (hk : ∀ k', H k' → ks.headD k' ≠ k) (h : Recovers n depth H ks Q q) :
    Recovers n depth H ks Q (Parser.accept k >>= fun found => if found then p else q) :=
  looked (b := false) (K := (· ≠ k)) hk (fun _ hmiss => accept_miss hmiss) h

theorem check {p q : Parse β} (hk : ∀ k', H k' → ks.headD k' ≠ k) (h : Recovers n depth H ks Q q) :
    Recovers n depth H ks Q (check k >>= fun found => if found then p else q) :=
  looked (b := false) (K := (· ≠ k)) hk (fun ts hmiss => by rw [check_run, decide_eq_false hmiss]) h

theorem checked (hk : ∀ k', H k' → ks.headD k' = k) (h : Recovers n depth H ks Q p) :
    Recovers n depth H ks Q (Parser.check k >>= fun found => if found then p else q) :=
  looked (b := true) (K := (· = k)) hk (fun ts hhit => by rw [check_run, decide_eq_true hhit]) h

theorem get {f : List Token → Parse β} (h : ∀ ts, (head ts).kind = k → Recovers n depth H (k :: ks) Q (f ts)) :
    Recovers n depth H (k :: ks) Q (get >>= f) := by
  intro ts rest hts hn hrest
  have hhead : (head (ts ++ rest)).kind = k := by rw [head_kind_append, hts, List.headD_cons]
  exact h _ hhead ts rest hts hn hrest

end Recovers

end TypedLua.Parser
