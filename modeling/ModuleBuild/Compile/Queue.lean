import ModuleBuild.Compile.Session
/-!
A compile pass whose sources take time to come: every module is claimed as soon as it is met, and the
claimed modules are compiled in turn, as their sources come in.
-/

namespace ModuleBuild

namespace Pass

inductive Task where
  | claim (specifier : Specifier)
  /-- A claimed module whose source was asked for. -/
  | compile (specifier : Specifier) (record : ModuleRecord)

/-- Whether a task is to compile a module that has a source. -/
def Task.leadsOn (sources : SourceTree) : Task → Bool
  | .claim _ => false
  | .compile specifier _ => (sources.get? specifier).isSome

def Task.weight : Task → Nat
  | .claim _ => 2
  | .compile _ _ => 1

def leads (sources : SourceTree) (work : List Task) : Nat := work.countP (Task.leadsOn sources)

def weight : List Task → Nat
  | [] => 0
  | task :: rest => task.weight + weight rest

theorem weight_concat (work : List Task) (task : Task) :
    weight (work ++ [task]) = weight work + task.weight := by
  induction work with
  | nil => simp [weight]
  | cons first rest ih => simp [weight, ih, Nat.add_assoc]

theorem leads_claim (sources : SourceTree) (specifier : Specifier) (work : List Task) :
    leads sources (.claim specifier :: work) = leads sources work :=
  List.countP_cons_of_neg (by simp [Task.leadsOn])

theorem leads_claims (sources : SourceTree) (targets : List Specifier) (work : List Task) :
    leads sources (targets.map .claim ++ work) = leads sources work := by
  induction targets with
  | nil => rfl
  | cons target rest ih => rw [List.map_cons, List.cons_append, leads_claim, ih]

theorem leads_compile {sources : SourceTree} {specifier : Specifier} {entry : SourceEntry}
    (found : sources.get? specifier = some entry) (record : ModuleRecord) (work : List Task) :
    leads sources (.compile specifier record :: work) = leads sources work + 1 :=
  List.countP_cons_of_pos (by simp [Task.leadsOn, found])

theorem leads_le (sources : SourceTree) (task : Task) (work : List Task) :
    leads sources work ≤ leads sources (task :: work) :=
  (List.sublist_cons_self task work).countP_le

/-- A claimed module leaves less fresh, by one at least if it has a source. -/
theorem fresh_and_leads_le (sources : SourceTree) {claimed : List Specifier}
    {specifier : Specifier} (fresh : specifier ∉ claimed) (record : ModuleRecord)
    (work : List Task) :
    freshCount sources.keys (specifier :: claimed) +
        leads sources (work ++ [.compile specifier record]) ≤
      freshCount sources.keys claimed + leads sources work := by
  have fewer := freshCount_cons_le sources.keys claimed specifier
  rw [leads, List.countP_append, ← leads]
  cases found : sources.get? specifier with
  | none => simp [Task.leadsOn, found, fewer]
  | some entry =>
    have := freshCount_cons_lt (OrderedMap.mem_keys_of_get? found) fresh
    simp only [List.countP_singleton, Task.leadsOn, found, Option.isSome_some, if_true]
    omega

/-- Claims and compiles modules in turn; where a source does not have to be waited for, a module is
compiled as soon as it is claimed. Also gives all that were claimed, first ones first. -/
def visitInTurn (tools : Toolchain) (waits : Specifier → Bool) (claimed : List Specifier)
    (pass : Pass) (work : List Task) : Pass × List Specifier :=
  match work with
  | [] => (pass, claimed.reverse)
  | .claim specifier :: rest =>
    if _fresh : specifier ∈ claimed then visitInTurn tools waits claimed pass rest
    else
      match pass.claim specifier false with
      | (pass, none) => visitInTurn tools waits (specifier :: claimed) pass rest
      | (pass, some record) =>
        if waits specifier then
          visitInTurn tools waits (specifier :: claimed) pass (rest ++ [.compile specifier record])
        else
          let (pass, targets) := pass.compileOrFail tools specifier record
          match _found : tools.sources.get? specifier with
          | none => visitInTurn tools waits (specifier :: claimed) pass rest
          | some _ =>
            visitInTurn tools waits (specifier :: claimed) pass (targets.map .claim ++ rest)
  | .compile specifier record :: rest =>
    let (pass, targets) := pass.compileOrFail tools specifier record
    match _found : tools.sources.get? specifier with
    | none => visitInTurn tools waits claimed pass rest
    | some _ => visitInTurn tools waits claimed pass (targets.map .claim ++ rest)
termination_by
  (freshCount tools.sources.keys claimed + leads tools.sources work, weight work)
decreasing_by
  · simp [leads_claim, weight, Task.weight, Prod.lex_def]
  · have := freshCount_cons_le tools.sources.keys claimed specifier
    simp only [leads_claim, weight, Task.weight, Prod.lex_def]
    omega
  · have := fresh_and_leads_le tools.sources _fresh record rest
    simp only [leads_claim, weight, weight_concat, Task.weight, Prod.lex_def]
    omega
  · have := freshCount_cons_le tools.sources.keys claimed specifier
    simp only [leads_claim, weight, Task.weight, Prod.lex_def]
    omega
  · have := freshCount_cons_lt (OrderedMap.mem_keys_of_get? _found) _fresh
    rw [leads_claims, leads_claim]
    exact Prod.Lex.left _ _ (by omega)
  · have := leads_le tools.sources (.compile specifier record) rest
    simp only [weight, Task.weight, Prod.lex_def]
    omega
  · rw [leads_claims, leads_compile _found]
    exact Prod.Lex.left _ _ (by omega)

end Pass

/-- Compiles roots and what they import, in the order in which their sources come in. -/
def Workspace.compileInTurn (workspace : Workspace) (tools : Toolchain)
    (waits : Specifier → Bool) (roots : List Specifier) : PassReport × Workspace :=
  let (pass, touched) := Pass.visitInTurn tools waits [] { workspace } (roots.map .claim)
  pass.settle touched

end ModuleBuild
