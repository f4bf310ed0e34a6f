import TypedLua.Proofs.Scoping.ExprSoundness
import TypedLua.Proofs.Target.Mentions
import TypedLua.Syntax.Names

/-!
# The variables of generated code

Code mentions the names that it was given and the variables of the names that its tree mentions, no
others.
-/

namespace TypedLua.Target

open Generate

/-! ## Variables mentioned by generated code -/

@[simp] theorem stmtsNames_append (code code' : List Stmt) :
    stmtsNames (code ++ code') = stmtsNames code ++ stmtsNames code' := by
  induction code with
  | nil => rfl
  | cons s code ih => simp [stmtsNames, ih]

@[simp] theorem cut_names (call : Call) : (cut call).names = call.names := by
  cases call <;> rfl

@[simp] theorem toCond_names (e : TypedLua.Expr) (value : Expr) : (toCond e value).names = value.names := by
  unfold toCond
  repeat' split
  all_goals rfl

@[simp] theorem lastItem_names (e : TypedLua.Expr) (call : Call) :
    exprsNames (lastItem e call).1 ++ tailNames (lastItem e call).2 = call.names := by
  unfold lastItem
  split
  · cases call <;> rfl
  · simp [exprsNames, tailNames]

@[simp] theorem itemsNames_positional (values : List Expr) :
    itemsNames (values.map .positional) = exprsNames values := by
  induction values with
  | nil => rfl
  | cons value values ih => simp [itemsNames, exprsNames, ih]

theorem adjusted_names (names : List String) (n : Nat) (es : List TypedLua.Expr) (list : List Expr × Option Tail) :
    ((toAdjusted n es list).assign names).names ⊆ names ++ (exprsNames list.1 ++ tailNames list.2) := by
  unfold toAdjusted
  split <;> simp [Adjusted.assign, Stmt.names]

namespace Scoping

@[simp] theorem filled_names (code : List Stmt) : stmtsNames (filled code) = stmtsNames code := by
  cases code with
  | nil => rfl
  | cons s code => rfl

/-- What code between two places may mention: names that it was given, and declarations of the names
that it comes from. -/
structure Uses (p p' : Place) (sources given names bound : List String) : Prop where
  names : ∀ x ∈ names, x ∈ given ∨ ∃ y ∈ sources, ∃ d, p.find y = some d ∧ d.name = x
  bound : bound ⊆ given
  scope : ∀ y d, p'.find y = some d → d.name ∈ given ∨ p.find y = some d
  path : p'.path = p.path

/-- Names that differ from each other and from those of the declarations in scope. -/
structure Place.Spares (p : Place) (names : List String) : Prop where
  nodup : names.Nodup
  declared : ∀ {y d}, p.find y = some d → d.name ∉ names

namespace Uses

variable {p p' p'' : Place} {src src' src1 src2 g g1 g2 n n' n1 n2 g' b b' b1 b2 : List String}

theorem and (h1 : Uses p p' src1 g1 n1 b1) (h2 : Uses p' p'' src2 g2 n2 b2) :
    Uses p p'' (src1 ++ src2) (g1 ++ g2) (n1 ++ n2) (b1 ++ b2) := by
  obtain ⟨hn1, hb1, hs1, hp1⟩ := h1
  obtain ⟨hn2, hb2, hs2, hp2⟩ := h2
  constructor
  · intro x hx
    rcases List.mem_append.1 hx with hx | hx
    · grind
    · rcases hn2 x hx with hg | ⟨y, hy, d, hd, rfl⟩
      · grind
      · grind
  · grind
  · grind
  · exact hp2.trans hp1

theorem imp (h : Uses p p' src g n b)
    (hsub : ∀ x, (x ∈ src → x ∈ src') ∧ (x ∈ g → x ∈ g') ∧ (x ∈ n' → x ∈ n) ∧ (x ∈ b' → x ∈ b)) :
    Uses p p' src' g' n' b' := by
  obtain ⟨hn, hb, hs, hp⟩ := h
  constructor <;> grind

theorem avoids (h : Uses p p' src g n b) (hx : x ∉ g)
    (hsrc : ∀ y ∈ src, ∀ d, p.find y = some d → d.name ≠ x) : x ∉ n :=
  fun hn => (h.names x hn).elim hx fun ⟨y, hy, d, hd, heq⟩ => hsrc y hy d hd heq

theorem close (h : Uses p p' src g n b) : Uses p p src g n b := ⟨h.names, h.bound, fun _ _ => .inr, rfl⟩

theorem value {call : Call} (h : Uses p p src g (stmtsNames code ++ call.names) b) :
    Uses p p src g (cut call).names [] :=
  h.imp (by grind [cut_names])

theorem nil : Uses p p [] [] [] [] := ⟨by simp, by simp, fun _ _ => .inr, rfl⟩

theorem within (h : Uses q q' src g n b) (hfind : q.find = p.find) : Uses p p src g n b :=
  ⟨hfind ▸ h.names, h.bound, fun _ _ => .inr, rfl⟩

theorem holds {names : List String} (_ : p.Holds names) : Uses p p [] names names names :=
  ⟨fun _ => .inl, List.Subset.refl _, fun _ _ => .inr, rfl⟩

theorem read (hfind : p.find x = some d) : Uses p p [x] [] [d.name] [] :=
  ⟨by simp [hfind], List.nil_subset _, fun _ _ => .inr, rfl⟩

theorem var (x : String) : Uses p p [] [x] (Expr.var x).names [] :=
  ⟨fun _ hx => .inl (by simpa [Expr.names] using hx), List.nil_subset _, fun _ _ => .inr, rfl⟩

theorem pairs (pairs : List (String × String)) :
    Uses p (p.declareAll pairs) [] (pairs.map (·.2)) (pairs.map (·.2)) (pairs.map (·.2)) := by
  refine ⟨fun _ => .inl, List.Subset.refl _, fun y d hd => ?_, Place.declareAll_path _ _⟩
  rw [Place.declareAll_find] at hd
  rcases Option.or_eq_some_iff.1 hd with hd | ⟨-, hd⟩
  · obtain ⟨name, hname, rfl⟩ := Option.map_eq_some_iff.1 hd
    exact .inl (List.mem_map.2 ⟨_, mem_of_lookup_reverse hname, rfl⟩)
  · exact .inr hd

theorem declare (_ : p.Holds [name]) : Uses p (p.declare x name) [] [name] [name] [name] := pairs [(x, name)]

theorem declareAll {xs names : List String} (h : names.length = xs.length) :
    Uses p (p.declareAll (xs.zip names)) [] names names names := by
  simpa only [List.map_snd_zip (Nat.le_of_eq h)] using pairs (p := p) (xs.zip names)

end Uses

section

attribute [local grind =] stmtsNames exprsNames itemsNames tailNames partsNames Expr.names Call.names Stmt.names
  OrElse.names Answer.names Expr.bound Call.bound exprsBound tailBound itemsBound partsBound
  stmtsBound Stmt.bound TypedLua.Expr.names exprNames fieldNames optionNames stmtNames TypedLua.Stmt.names
  Function.names Block.names clauseNames optionBlockNames stmtsBound_append stmtsNames_append cut_bound cut_names
  itemsBound_positional itemsNames_positional toCond_names toCond_bound filled_names

attribute [local grind] consItem

theorem def_names (d : Def) : d.names = d.name :: stmtsNames d.body := by
  cases d
  rfl

attribute [local grind =] def_names

theorem breakCode_names (p : Place) : p.breakCode.names = [] := by
  unfold Place.breakCode
  split <;> rfl

variable [LoopForms]

mutual

theorem ExprCode.uses {p e code call given} : ExprCode p e code call given →
    Uses p p e.names given (stmtsNames code ++ call.names) (stmtsBound code ++ call.bound)
  | .nil | .bool | .string | .vararg | .global _ => Uses.nil.imp (by grind)
  | .number => by
    unfold numberLiteral
    repeat' split
    all_goals exact Uses.nil.imp (by grind)
  | .variable hfind _ => (Uses.read hfind).imp (by grind)
  | .function hholds hdef => ((Uses.holds hholds).and hdef.uses).imp (by grind)
  | .table h => h.uses.imp (by grind)
  | .binary _ hl hr | .index hl hr => (hl.uses.and hr.uses).imp (by grind)
  | .andThen hholds hl hr | .orElse hholds hl hr => (hl.uses.and ((Uses.holds hholds).and hr.uses)).imp (by grind)
  | .negation h | .length h | .minus h | .paren h => h.uses.imp (by grind)
  | .call hl hr | .method hl hr => (hl.uses.and hr.uses).imp (by grind)
  | .block hp hv => (hp.uses.and hv.uses).close.imp (by grind)

theorem ListCode.uses {p es code list given} : ListCode p es code list given →
    Uses p p (exprNames es) given (stmtsNames code ++ (exprsNames list.1 ++ tailNames list.2))
      (stmtsBound code ++ (exprsBound list.1 ++ tailBound list.2))
  | .nil => Uses.nil.imp (by grind)
  | .last h => by
    have hn := lastItem_names
    have hb := lastItem_bound
    exact h.uses.imp (by grind [listBound])
  | .cons h ht => (h.uses.and ht.uses).imp (by grind)

theorem ItemsCode.uses {p fields code list given} : ItemsCode p fields code list given →
    Uses p p (fieldNames fields) given (stmtsNames code ++ (itemsNames list.1 ++ tailNames list.2))
      (stmtsBound code ++ (itemsBound list.1 ++ tailBound list.2))
  | .nil => Uses.nil.imp (by grind)
  | .last h => by
    have hn := lastItem_names
    have hb := lastItem_bound
    exact h.uses.imp (by grind [listBound])
  | .keyed h h' ht => (h.uses.and (h'.uses.and ht.uses)).imp (by grind)
  | .positional h ht => (h.uses.and ht.uses).imp (by grind)

theorem PartsCode.uses {p p' ss code parts given} : PartsCode p ss code parts p' given →
    Uses p p' (stmtNames ss) given (stmtsNames code ++ partsNames parts) (stmtsBound code ++ partsBound parts)
  | .nil => Uses.nil.imp (by grind)
  | .run h ht => (h.uses.and ht.uses).imp (by grind)
  | .bindNull hholds ht => ((Uses.declare hholds).and ht.uses).imp (by grind)
  | .bind h hholds ht => (h.uses.and ((Uses.declare hholds).and ht.uses)).imp (by grind)

theorem FunctionCode.uses {p f d given} : FunctionCode p f d given → Uses p p f.names given (stmtsNames d.body) []
  | .mk hlen hbody _ => (((Uses.declareAll hlen).and hbody.uses).imp (by grind [Def.body])).within rfl

theorem BlockCode.uses {p b suite given} : BlockCode p b suite given → Uses p p b.names given (stmtsNames suite) []
  | .mk h => h.uses.close.imp (by grind)

theorem OrElseCode.uses {p clauses final other given} : OrElseCode p clauses final other given →
    Uses p p (clauseNames clauses ++ optionBlockNames final) given other.names []
  | .none | .empty => Uses.nil.imp (by grind)
  | .otherwise h => h.uses.imp (by grind)
  | .elseIf hcond hbody htail | .hoisted hcond hbody htail =>
    (hcond.uses.and (hbody.uses.and htail.uses)).imp (by grind)

theorem RoundCode.uses {p ss until? code given} : RoundCode p ss until? code given →
    Uses p p (stmtNames ss ++ optionNames until?) given (stmtsNames code) []
  | .plain h => h.uses.close.imp (by grind)
  | .until h hcond => (h.uses.and hcond.uses).close.imp (by grind [breakCode_names])

theorem LoopCode.uses {p pairs ss until? suite given} : LoopCode p pairs ss until? suite given →
    Uses p p (stmtNames ss ++ optionNames until?) (pairs.map (·.2) ++ given) (stmtsNames suite) []
  | .inline _ h => (h.uses.imp (by grind)).within rfl
  | .iteration _ hholds h _ =>
    ((Uses.holds hholds).and (((Uses.pairs pairs).and h.uses).within rfl)).imp (by grind [Def.name, Def.body])

theorem TargetCode.uses {p target value code given src g} : TargetCode p target value code given →
    Uses p p src g value.names [] → Uses p p (src ++ target.names) (g ++ given) (stmtsNames code) []
  | .global _, h => h.imp (by grind)
  | .variable hfind _, h => (h.and (Uses.read hfind)).imp (by grind)
  | .index hobj hkey, h => (h.and (hobj.uses.and hkey.uses)).imp (by grind)

theorem TargetsCode.uses {p targets temps code given} : TargetsCode p targets temps code given →
    Uses p p (exprNames targets) (temps ++ given) (stmtsNames code) []
  | .nil => Uses.nil.imp (by grind)
  | .cons h ht => ((h.uses (Uses.var _)).and ht.uses).imp (by grind)

theorem StepCode.uses {p step code step' given} : StepCode p step code step' given →
    Uses p p (optionNames step) given (stmtsNames code ++ exprsNames step'.toList)
      (stmtsBound code ++ exprsBound step'.toList)
  | .none => Uses.nil.imp (by grind)
  | .some h => h.uses.imp (by grind)

theorem StmtsCode.uses {p p' ss code given} : StmtsCode p ss code p' given →
    Uses p p' (stmtNames ss) given (stmtsNames code) []
  | .nil => Uses.nil.imp (by grind)
  | .cons h ht => (h.uses.and ht.uses).imp (by grind)

theorem StmtCode.uses {p p' s code given} : StmtCode p s code p' given → Uses p p' s.names given (stmtsNames code) []
  | .localNull hlen _ => (Uses.declareAll hlen).imp (by grind)
  | .localOne h hholds => (h.uses.and (Uses.declare hholds)).imp (by grind)
  | .localMany _ _ hlen h _ => (h.uses.and (Uses.declareAll hlen)).imp (by grind [adjusted_names])
  | .localFunction hholds h => ((Uses.declare hholds).and h.uses).imp (by grind)
  | .assignOne hval htarget => (hval.uses.and (htarget.uses hval.uses.value)).imp (by grind)
  | .assignMany _ _ hholds hvals htargets =>
    ((Uses.holds hholds).and (hvals.uses.and htargets.uses)).imp (by grind [adjusted_names])
  | .expr h => h.uses.imp (by grind)
  | .scope h => h.uses.close.imp (by grind)
  | .whileLoop hcond hloop => (hcond.uses.and hloop.uses).imp (by grind)
  | .repeatLoop h => h.uses.imp (by grind)
  | .ifElse hcond hbody htail => (hcond.uses.and (hbody.uses.and htail.uses)).imp (by grind)
  | .numericFor hstart hstop hstep hholds hloop =>
    (hstart.uses.and (hstop.uses.and (hstep.uses.and ((Uses.declare hholds).and hloop.uses)))).close.imp (by grind)
  | .genericFor hlist hlen _ hloop =>
    have hfresh := List.map_snd_zip (Nat.le_of_eq hlen)
    (hlist.uses.and ((Uses.pairs _).and hloop.uses)).close.imp (by grind)
  | .returnNone => Uses.nil.imp (by grind)
  | .returnOne h => h.uses.imp (by grind)
  | .returnMany h => h.uses.imp (by grind)
  | .breakLoop _ => Uses.nil.imp (by grind [breakCode_names])

end

end

end Scoping

end TypedLua.Target
