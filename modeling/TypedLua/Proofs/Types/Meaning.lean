import TypedLua.Proofs.Types.Evaluation

/-!
# Annotations mean what they say

A fresh session has its registry at hand, so every type can be compiled and run there.
-/

namespace TypedLua

/-! ## Fresh registries -/

namespace Environment

theorem find_foldl_update (entries : List (String × Value)) (t : Table) (hx : x ∉ entries.map (·.1)) :
    (entries.foldl (fun t (name, v) => t.update (.string name) v) t).find (.string x) = t.find (.string x) := by
  induction entries generalizing t with
  | nil => rfl
  | cons e entries ih =>
    obtain ⟨name, v⟩ := e
    simp only [List.map_cons, List.mem_cons, not_or] at hx
    rw [List.foldl_cons, ih _ hx.2, Table.find_update_of_ne]
    simpa using hx.1

theorem find_tableOf {entries : List (String × Value)}
    (hnodup : (entries.map (·.1)).Nodup) (hmem : (x, v) ∈ entries) : (tableOf entries).find (.string x) = v := by
  obtain ⟨before, after, rfl⟩ := List.append_of_mem hmem
  rw [List.map_append, List.map_cons, List.nodup_append] at hnodup
  rw [tableOf, List.foldl_append, List.foldl_cons, find_foldl_update, Table.find_update_self]
  exact (List.nodup_cons.1 hnodup.2.1).1

theorem newPredicates_run (ps : List (String × Predicate)) (s : Store) : ∃ entries, newPredicates ps s =
        .ok entries { s with predicates := s.predicates ++ (ps.map (·.2)).toArray } ∧
      entries.map (·.1) = ps.map (·.1) ∧
      ∀ x p, (x, p) ∈ ps → ∃ i, (x, .function (.predicate i)) ∈ entries ∧
        i < (s.predicates ++ (ps.map (·.2)).toArray).size ∧
        (s.predicates ++ (ps.map (·.2)).toArray).getD i default = p := by
  induction ps generalizing s with
  | nil => exact ⟨[], by simp [newPredicates]; rfl, rfl, by simp⟩
  | cons e ps ih =>
    obtain ⟨name, p⟩ := e
    obtain ⟨entries, hrun, hnames, hmem⟩ := ih { s with predicates := s.predicates.push p }
    have hpush : s.predicates.push p ++ (ps.map (·.2)).toArray =
        s.predicates ++ (((name, p) :: ps).map (·.2)).toArray := by
      apply Array.ext'
      simp
    simp only [hpush] at hrun hmem
    refine ⟨(name, .function (.predicate s.predicates.size)) :: entries, ?_, by simp [hnames], ?_⟩
    · have hnew : Run.newPredicate p s = .ok (.function (.predicate s.predicates.size))
        { s with predicates := s.predicates.push p } := rfl
      rw [newPredicates, Run.bind_ok hnew, Run.bind_ok hrun]
      rfl
    · intro x q hq
      rcases List.mem_cons.1 hq with heq | hq
      · cases heq
        exact ⟨s.predicates.size, List.mem_cons_self, by simp, by simp [Array.getD]⟩
      · obtain ⟨i, hi, hsize, hget⟩ := hmem x q hq
        exact ⟨i, List.mem_cons_of_mem _ hi, hsize, hget⟩

theorem newRegistry_run (s : Store) : ∃ t predicates, newRegistry s =
        .ok s.tables.size { s with tables := s.tables.push t, predicates } ∧
      IsRegistry t predicates := by
  obtain ⟨entries, hrun, hnames, hmem⟩ := newPredicates_run basicPredicates s
  refine ⟨tableOf (entries ++ typeConstructors), s.predicates ++ (basicPredicates.map (·.2)).toArray, ?_, ?_⟩
  · rw [newRegistry, Run.bind_ok hrun]
    rfl
  · have hnodup : ((entries ++ typeConstructors).map (·.1)).Nodup := by
      rw [List.map_append, hnames]
      decide
    constructor
    · intro x p hp
      obtain ⟨i, hi, hsize, hget⟩ := hmem x p hp
      exact ⟨i, find_tableOf hnodup (List.mem_append_left _ hi), hsize, hget⟩
    · intro x f hf
      exact find_tableOf hnodup (List.mem_append_right _ hf)

theorem newGlobals_run (channel : Nat) (s : Store) :
    ∃ globals s', newGlobals channel s = .ok globals s' ∧ globals < s'.tables.size :=
  ⟨_, _, rfl, by simp⟩

end Environment

theorem Session.start_hasRegistry (config : Config) (channel : Nat) (s0 : Store) :
    ∃ session s, Session.start config channel s0 = .ok session s ∧
      Environment.HasRegistry config.registry session.globals s := by
  obtain ⟨globals, s1, hglobals, hlt⟩ := Environment.newGlobals_run channel s0
  obtain ⟨t, predicates, hregistry, ht⟩ := Environment.newRegistry_run s1
  let tables := s1.tables.push t
  let named := (tables.getD globals {}).update (.string config.registry) (.table s1.tables.size)
  refine ⟨⟨config, globals, channel⟩, { s1 with tables := tables.setIfInBounds globals named, predicates }, ?_, ?_⟩
  · rw [Session.start, Run.bind_ok hglobals, Run.bind_ok hregistry]
    rfl
  · have hne : globals ≠ s1.tables.size := by omega
    have hglobals' : (tables.setIfInBounds globals named).getD globals {} = named := by
      simp [tables, Array.getD, Nat.lt_succ_of_lt hlt]
    have hregistry' : (tables.setIfInBounds globals named).getD s1.tables.size {} = t := by
      simp [tables, Array.getD, hne]
    refine ⟨?_, s1.tables.size, ?_, ?_, ?_⟩
    · simp [tables, Nat.lt_succ_of_lt hlt]
    · simp [tables]
    · rw [hglobals', Table.find_update_self]
    · rwa [hregistry']

/-! ## Predicates as functions -/

namespace Machine

/-- The function decides a type in a store: it returns for the values of the type, and fails for all
others, with a mismatch if the value can be written. -/
def Decides (m : Machine) (type : Expr) (f : Value) (s : Store) : Prop :=
  ∀ v, (type.admits s v = true → m.call f [v] s = .ok (.one .nil) s) ∧
    (type.admits s v = false → v.isWritable = true →
      ∃ expected, m.call f [v] s = .error (.fault (.mismatch expected v)) s) ∧
    (type.admits s v = false → v.isWritable = false → m.call f [v] s = .error (.fault (.trap .unwritable)) s)

theorem decides_of_represents {m : Machine} {watch : Watch} {n : Nat}
    (hcall : m.call = callWithin watch (n + 1)) {type : Expr} {f : Value} {s : Store}
    (h : Library.Represents s.predicates type f) : m.Decides type f s := by
  obtain ⟨id, rfl, hid, hconforms⟩ := h
  intro v
  have hrun : Library.conforms (callWithin watch n) (.function (.predicate id)) v s = .ok (type.admits s v) s :=
    hconforms _ s v (s.predicates.size + 1) List.prefix_rfl (by omega)
  rw [hcall, callWithin]
  show (_ → Library.silent (Library.applyPredicate (callWithin watch n) id v) s = _) ∧
    (_ → _ → ∃ _, Library.silent (Library.applyPredicate (callWithin watch n) id v) s = _) ∧
    (_ → _ → Library.silent (Library.applyPredicate (callWithin watch n) id v) s = _)
  have happly : Library.applyPredicate (callWithin watch n) id v s = (if type.admits s v then pure ()
        else if v.isWritable then do Run.fail (.mismatch (← Run.predicate id).description v)
        else Run.trap .unwritable : Run Unit) s := by
    rw [Library.applyPredicate, Run.bind_ok hrun]
  refine ⟨?_, ?_, ?_⟩
  · intro hin
    rw [hin] at happly
    rw [Library.silent, Run.bind_ok happly]
    rfl
  · intro hout hwritable
    rw [hout, hwritable] at happly
    exact ⟨_, Run.bind_error happly⟩
  · intro hout hwritable
    rw [hout, hwritable] at happly
    exact Run.bind_error happly

/-- A type that is compiled, generated and run in a fresh session decides what it denotes, from then
on. -/
theorem compileType_decides {m : Machine} {watch : Watch} {n : Nat}
    (hcall : m.call = callWithin watch (n + 1)) (config : Config) (channel : Nat) (s₀ : Store)
    {type : Expr} (htype : type.isType) : ∃ session s, Session.start config channel s₀ = .ok session s ∧
      ∀ env : Env, env.globals = session.globals →
        ∃ e code f s', Annotation.compileType config.registry [] type = .ok e ∧
          (∀ ctx st, Target.Generate.Context.lookup ctx config.registry = none →
            Target.Generate.raw ctx e st = .ok (code, st)) ∧
          evalExpr m env (Target.Generate.cut code) s = .ok f s' ∧
          ∀ later : Store, s'.predicates.toList <+: later.predicates.toList → m.Decides type f later := by
  obtain ⟨session, s, hstart, hregistry⟩ := Session.start_hasRegistry config channel s₀
  refine ⟨session, s, hstart, ?_⟩
  intro env hglobals
  obtain ⟨e, he, code, hraw, hrun⟩ := compileType_gives hcall type htype
  obtain ⟨f, s', hf, -, hQ⟩ := hrun s (hglobals ▸ hregistry)
  refine ⟨e, code, f, s', he, hraw, evalExpr_cut hf, ?_⟩
  intro later hlater
  exact decides_of_represents hcall (hQ.mono hlater)

def taggedNumbers : Expr := .table none [.mk none none (.name none "number"), .mk none (some (.string none "tag"))
      (.binary none (.unary none .not (.string none "a")) .or (.nil none))]

def oneCall : Machine := ⟨0, callWithin (fun _ run => run) 1, enterWithin (fun _ run => run) 1, fun _ run => run⟩

theorem compileType_decides_taggedNumbers : taggedNumbers.isType = true ∧
    ∃ session s, Session.start {} 0 {} = .ok session s ∧
      ∃ e code f s', Annotation.compileType "types" [] taggedNumbers = .ok e ∧
        Target.Generate.raw ⟨[], 0, 0, false⟩ e ⟨[], [], []⟩ = .ok (code, ⟨[], [], []⟩) ∧
        evalExpr oneCall ⟨session.globals, [], []⟩ (Target.Generate.cut code) s = .ok f s' ∧
        oneCall.Decides taggedNumbers f s' := by
  have htype : taggedNumbers.isType = true := by decide
  obtain ⟨session, s, hstart, h⟩ := compileType_decides (m := oneCall) (n := 0) rfl {} 0 {} htype
  obtain ⟨e, code, f, s', he, hraw, hf, hdecides⟩ := h ⟨session.globals, [], []⟩ rfl
  exact ⟨htype, session, s, hstart, e, code, f, s', he, hraw _ _ rfl, hf, hdecides s' List.prefix_rfl⟩

end Machine

end TypedLua
