/-
This file puts the calls of the Codex pool adapter in sequence, each under the pool's
lock, among sessions that rewrite the pool's `auth.json` at any moment. No call
destroys a login, as long as no session writes where the call relies on what it has
read, and as long as `heal` finds no login that it takes for a damaged file.
-/

import AiSwitcher.Identities.Pool.CodexGrants

namespace AiSwitcher.Codex

open JavaScript Interleaving Pool

/-! ### Calls -/

inductive CodexCall where
  | swap (codex : MemberPool) (target : Identity) (member : target ∈ codex.members) (stamp : String)
  | heal (codex : MemberPool) (stamp : String)

inductive CodexResult where
  | swapped (result : SwapResult)
  | healed (notes : List String)

def CodexCall.codex : CodexCall → MemberPool
  | .swap codex .. => codex
  | .heal codex _ => codex

/-- A call runs under the pool's lock. -/
def CodexCall.program (runtime : TokenRuntime) : CodexCall → PoolProgram CodexResult
  | .swap codex target _ stamp => withPoolLock codex.pool.configDir do
      let result ← swapCredentials runtime codex target stamp
      return .swapped result
  | .heal codex stamp => withPoolLock codex.pool.configDir do
      let notes ← Codex.heal runtime codex stamp
      return .healed notes

/-- The sessions leave the pool's file alone where the call relies on it, and a heal finds no login
that it takes for damaged. -/
def CodexCall.Considered (runtime : TokenRuntime) : CodexCall → PoolActions → Prop
  | .swap codex .. => Undisturbed runtime codex.pool.configDir
  | .heal codex _ => HealsWhole runtime codex

theorem against_returning {runtime : TokenRuntime} {codex : MemberPool} {files : PoolFiles}
    {own : PoolActions} {First Second : Type} {considered : PoolActions → Prop}
    {program : PoolProgram First} (second : First → Second)
    (ends : program.against (· = poolFile codex) (Keeps runtime codex considered) files own) :
    (program >>= fun first => (pure (second first) : PoolProgram Second)).against (· = poolFile codex)
      (Keeps runtime codex considered) files own := by
  refine Program.against_bind ends (fun first kept own keeps asked => ?_)
    fun message kept own keeps asked => ?_
  · exact (keeps asked).returning _
  · exact ⟨(keeps asked).recoverable, fun _ _ => (keeps asked).unharmed message rfl⟩

theorem CodexCall.against_program (runtime : TokenRuntime) (call : CodexCall)
    (files : PoolFiles) :
    (call.program runtime).against (· = poolFile call.codex)
      (Keeps runtime call.codex (call.Considered runtime)) files [] := by
  have looked : OnlyLooked [] := fun _ member => nomatch member
  cases call with
  | swap codex target member stamp =>
    exact Program.against_withLock _ (against_returning _ (against_swapCredentials member stamp
      looked)) fun _ => looked.keepsGrants _
  | heal codex stamp =>
    exact Program.against_withLock _ (against_returning _ (against_heal stamp looked))
      fun _ => looked.keepsGrants _

/-! ### Sequences of calls -/

/-- The calls as one program, and any number of sessions. -/
abbrev CodexSystem := System PoolFile FileText PoolLock ℕ CodexResult Unit

/-- A call that was made, with the files when it ended and what happened from its start. -/
structure CallRun where
  call : CodexCall
  outcome : Except String CodexResult
  finish : State PoolFile FileText PoolLock (Option ℕ)

def CallRun.Considered (runtime : TokenRuntime) (run : CallRun) : Prop :=
  run.call.Considered runtime run.finish.own

def CallRun.KeepsGrants (runtime : TokenRuntime) (run : CallRun) : Prop :=
  Codex.KeepsGrants runtime run.call.codex run.outcome run.finish.files run.finish.own

/-- The calls made on a pool, the latest first, while sessions act before, during and after them. -/
inductive Calls (runtime : TokenRuntime) (poolDir : String) (start : CodexSystem) :
    List CallRun → CodexSystem → Prop
  | none : Calls runtime poolDir start [] start
  | session {runs system next} (calls : Calls runtime poolDir start runs system)
      (step : system.OtherStep next) : Calls runtime poolDir start runs next
  | call {runs system before after outcome} (calls : Calls runtime poolDir start runs system)
      (call : CodexCall) (ofPool : call.codex.pool.configDir = poolDir)
      (run : System.Reaches ⟨call.program runtime, system.others, { system.state with trace := [] }⟩
        before)
      (completes : before.Completes after outcome) :
      Calls runtime poolDir start (⟨call, outcome, after.state⟩ :: runs) after

/-- The step lemma: one call among sessions. -/
theorem CodexCall.keepsGrants {runtime : TokenRuntime} (call : CodexCall)
    {start before after : CodexSystem} {outcome : Except String CodexResult}
    (sessions : start.Disciplined (onlyRewriting (· = poolFile call.codex)))
    (calls : start.main = call.program runtime) (fresh : start.state.trace = [])
    (run : start.Reaches before) (completes : before.Completes after outcome)
    (considered : call.Considered runtime after.state.own) :
    KeepsGrants runtime call.codex outcome after.state.files after.state.own := by
  have ends := call.against_program runtime start.state.files
  rw [← calls] at ends
  obtain ⟨kept, own, known, keeps⟩ := System.against_completes sessions fresh ends run completes
  rw [known.own] at considered ⊢
  obtain ⟨recoverable, unharmed⟩ := keeps considered
  refine ⟨fun replaced written member tokens => ?_, unharmed⟩
  refine (recoverable replaced written member tokens).imp_left fun inVault => inVault.congr ?_
  exact fun member isMember => known.files _ (credentials_ne (call.codex.separate member isMember))

/-- In every sequence of swaps and heals among sessions, every call made under the conditions keeps
the logins that it replaces. -/
theorem codexCalls_keepGrants (runtime : TokenRuntime) (poolDir : String)
    {start finish : CodexSystem} {runs : List CallRun}
    (sessions : start.Disciplined (onlyRewriting (· = .credentials poolDir)))
    (calls : Calls runtime poolDir start runs finish) :
    ∀ run ∈ runs, run.Considered runtime → run.KeepsGrants runtime := by
  suffices both : finish.Disciplined (onlyRewriting (· = .credentials poolDir)) ∧
      ∀ run ∈ runs, run.Considered runtime → run.KeepsGrants runtime from both.2
  induction calls with
  | none => exact ⟨sessions, fun _ member => nomatch member⟩
  | session _ step inductionHypothesis =>
    exact ⟨inductionHypothesis.1.step (Or.inr step), inductionHypothesis.2⟩
  | @call _ system _ _ _ _ call ofPool run completes inductionHypothesis =>
    obtain ⟨disciplined, earlier⟩ := inductionHypothesis
    subst ofPool
    have sessions : System.Disciplined (onlyRewriting (· = poolFile call.codex))
        (⟨call.program runtime, system.others, { system.state with trace := [] }⟩ : CodexSystem) :=
      disciplined
    refine ⟨(sessions.reaches run).step (Or.inl completes.1), ?_⟩
    refine List.forall_mem_cons.mpr ⟨fun considered => ?_, earlier⟩
    exact call.keepsGrants sessions rfl rfl run completes considered

/-! ### A login without an id token -/

namespace DamagedLogin

/-- Tokens that say when they were issued, `a2` later than the others. -/
def runtime : TokenRuntime where
  decodeJwtPayload token := some [("iat", .num (.finite (if token = "a2" then 2 else 1)))]
  digest token := token
  dateParse _ := none
  textOf _ := ""

def work : Identity where
  name := "work"
  configDir := "/work"

def codex : MemberPool where
  pool := { name := "codex", configDir := "/codex", active := some "work" }
  members := [work]
  separate := by decide

def login (tokens : List (String × String)) : FileText :=
  .json (.obj [("tokens", .obj (tokens.map fun (key, value) => (key, .str value)))])

def vault : FileText :=
  login [("access_token", "a1"), ("refresh_token", "r1"), ("id_token", "i1"), ("account_id", "acct")]

/-- The pool's file is `live`; no session acts. -/
def start (live : FileText) : CodexSystem where
  main := .done (.healed [])
  others _ := .done ()
  state :=
    { files := fun
        | .credentials "/work" => some vault
        | .credentials "/codex" => some live
        | _ => none
      holders := fun _ => none
      trace := [] }

/-- A heal that is not interrupted. -/
def healed (live : FileText) : CallRun :=
  let ended := ((CodexCall.heal codex "1").program runtime).execute none (start live).state
  ⟨.heal codex "1", ended.1, ended.2⟩

theorem calls (live : FileText) :
    ∃ finish, Calls runtime "/codex" (start live) [healed live] finish := by
  obtain ⟨before, after, reaches, completes, ended⟩ := System.exists_completes
    ((CodexCall.heal codex "1").program runtime) (start live).others (start live).state rfl
  have run := Calls.call (@Calls.none runtime "/codex" (start live)) (.heal codex "1") rfl reaches
    completes
  rw [ended] at run
  exact ⟨after, run⟩

theorem sessions (live : FileText) :
    (start live).Disciplined (onlyRewriting (· = .credentials "/codex")) :=
  fun _ => trivial

/-- The pool's login is the newer one, and lacks an id token. -/
def withoutIdToken : FileText :=
  login [("access_token", "a2"), ("refresh_token", "r2"), ("account_id", "acct")]

/-- The pool's login is one of an account that no member has. -/
def stranger : FileText :=
  login [("access_token", "a2"), ("refresh_token", "r2"), ("id_token", "i2"),
    ("account_id", "other")]

/-- Where the event replaces the pool's file, it replaces this text. -/
def replacesOnly (text : FileText) : Event PoolFile FileText (Option ℕ) → Bool
  | .wrote _ (.credentials "/codex") before _ => decide (before = some text)
  | _ => true

end DamagedLogin

open DamagedLogin in
/-- `heal` restores the active member's vault over a newer login of the same account. -/
theorem codexCalls_destroyGrant :
    ¬ ∀ (runtime : TokenRuntime) (poolDir : String) (start finish : CodexSystem)
      (runs : List CallRun), start.Disciplined (onlyRewriting (· = .credentials poolDir)) →
      Calls runtime poolDir start runs finish → ∀ run ∈ runs, run.KeepsGrants runtime := by
  intro claimed
  obtain ⟨finish, made⟩ := calls withoutIdToken
  have keeps := claimed runtime "/codex" _ _ _ (sessions withoutIdToken) made _
    List.mem_cons_self
  have replaced : .wrote none (.credentials "/codex") (some withoutIdToken) vault ∈
      (healed withoutIdToken).finish.own := by decide +kernel
  rcases keeps.recoverable _ _ replaced (by decide +kernel) with inVault | backedUp
  · obtain ⟨member, isMember, holds⟩ := inVault
    rw [List.mem_singleton.mp isMember] at holds
    rcases holds with holds | ⟨accountId, -, -, recent⟩
    · exact absurd holds.1 (by decide +kernel)
    · exact absurd recent (by decide +kernel)
  · obtain ⟨kind, stamp, before, text, -, -, written⟩ := backedUp
    have noBackup : ∀ event ∈ (healed withoutIdToken).finish.own, leavesBackup event = false := by
      decide +kernel
    exact absurd (noBackup _ written) Bool.noConfusion

open DamagedLogin in
/-- A login of an account that no member has is kept in a backup. -/
theorem codexCalls_keepGrants_stranger :
    ∃ finish, Calls runtime "/codex" (start stranger) [healed stranger] finish ∧
      (healed stranger).KeepsGrants runtime := by
  obtain ⟨finish, made⟩ := calls stranger
  refine ⟨finish, made, codexCalls_keepGrants runtime "/codex" (sessions stranger) made _
    List.mem_cons_self ⟨?_, fun before after replaced => ?_⟩⟩
  · show Undisturbed runtime "/codex" (healed stranger).finish.own
    decide +kernel
  · have whole : ∀ event ∈ (healed stranger).finish.own, replacesOnly stranger event = true := by
      decide +kernel
    have same : before = some stranger := of_decide_eq_true (whole _ replaced)
    rw [same]
    unfold IsWhole
    decide +kernel

end AiSwitcher.Codex
