/-
This file specialises the reasoning about interleaved programs to surroundings
that rewrite certain shared files and nothing else. A program among such others finds
every other file as it left it, and anything at all in a shared one: all that is
left of the interleaving is one arbitrary answer for each look at a shared file, and
`Program.against` runs through a program with these answers. Where no file is shared
the program runs as if alone.
-/

import AiSwitcher.Library.Interleaving

namespace Interleaving

/-! ### The program's own actions -/

variable {File Content Lock Process Result : Type}

def Event.thread {Thread : Type} : Event File Content Thread → Thread
  | .read thread .. => thread
  | .wrote thread .. => thread

/-- What the main program did, the latest first. -/
def State.own (state : State File Content Lock (Option Process)) :
    List (Event File Content (Option Process)) :=
  state.trace.filter fun event => event.thread.isNone

/-- The others rewrite shared files only. -/
def onlyRewriting (shared : File → Prop) (_held : Lock → Prop) (file : File) : Prop :=
  shared file

/-- The program's own actions were `own`, and outside the shared files it finds what is `kept`. -/
structure Known (shared : File → Prop) (kept : File → Option Content)
    (own : List (Event File Content (Option Process)))
    (state : State File Content Lock (Option Process)) : Prop where
  files : ∀ file, ¬ shared file → state.files file = kept file
  own : state.own = own

variable [DecidableEq File]

/-! ### Looking back -/

section History

variable {Thread : Type}

/-- What the latest look at the file found. -/
def lastFound (file : File) : List (Event File Content Thread) → Option (Option Content)
  | [] => none
  | .read _ other found :: earlier => if other = file then some found else lastFound file earlier
  | .wrote .. :: earlier => lastFound file earlier

/-- What was last put into the file. -/
def lastPut (file : File) : List (Event File Content Thread) → Option Content
  | [] => none
  | .read .. :: earlier => lastPut file earlier
  | .wrote _ other _ after :: earlier => if other = file then some after else lastPut file earlier

/-- What the file held when it was first replaced. -/
def firstReplaced (file : File) : List (Event File Content Thread) → Option (Option Content)
  | [] => none
  | .read .. :: earlier => firstReplaced file earlier
  | .wrote _ other before _ :: earlier =>
      (firstReplaced file earlier).or (if other = file then some before else none)

end History

/-- The program ends in `post` whatever it finds in the shared files. `post` is given the files, as
the program knows them, and its own actions. -/
def Program.against (shared : File → Prop) (post : Except String Result → (File → Option Content) →
      List (Event File Content (Option Process)) → Prop) :
    Program File Content Lock Result → (File → Option Content) →
      List (Event File Content (Option Process)) → Prop
  | .done result, kept, own => post (.ok result) kept own
  | .fail message, kept, own => post (.error message) kept own
  | .read file next, kept, own => ∀ found, (¬ shared file → found = kept file) →
      (next found).against shared post kept (.read none file found :: own)
  | .write file content next, kept, own =>
      (∀ before, (¬ shared file → before = kept file) →
        (next true).against shared post (Function.update kept file (some content))
          (.wrote none file before content :: own)) ∧
        (next false).against shared post kept own
  | .acquire _ next, kept, own =>
      (next true).against shared post kept own ∧ (next false).against shared post kept own
  | .release _ next, kept, own => next.against shared post kept own

section Rules

variable {shared : File → Prop} {post : Except String Result → (File → Option Content) →
  List (Event File Content (Option Process)) → Prop}

/-! ### Rules -/

theorem Program.against_mono {weaker : Except String Result → (File → Option Content) →
      List (Event File Content (Option Process)) → Prop}
    (implies : ∀ outcome kept own, post outcome kept own → weaker outcome kept own)
    (program : Program File Content Lock Result) :
    ∀ kept own, program.against shared post kept own →
      program.against shared weaker kept own := by
  induction program with
  | done result => exact fun _ _ => implies _ _ _
  | fail message => exact fun _ _ => implies _ _ _
  | read file next inductionHypothesis =>
    exact fun _ _ ends found answer => inductionHypothesis _ _ _ (ends found answer)
  | write file content next inductionHypothesis =>
    exact fun _ _ ends => ⟨fun before answer => inductionHypothesis _ _ _ (ends.1 before answer),
      inductionHypothesis _ _ _ ends.2⟩
  | acquire lock next inductionHypothesis =>
    exact fun _ _ ends => ⟨inductionHypothesis _ _ _ ends.1, inductionHypothesis _ _ _ ends.2⟩
  | release lock next inductionHypothesis =>
    exact fun _ _ ends => inductionHypothesis _ _ ends

theorem Program.against_andThen {First : Type}
    {next : Except String First → Program File Content Lock Result}
    (program : Program File Content Lock First) :
    ∀ kept own, program.against shared (fun outcome => (next outcome).against shared post) kept own →
      (program.andThen next).against shared post kept own := by
  induction program with
  | done result => exact fun _ _ ends => ends
  | fail message => exact fun _ _ ends => ends
  | read file rest inductionHypothesis =>
    exact fun _ _ ends found answer => inductionHypothesis _ _ _ (ends found answer)
  | write file content rest inductionHypothesis =>
    exact fun _ _ ends => ⟨fun before answer => inductionHypothesis _ _ _ (ends.1 before answer),
      inductionHypothesis _ _ _ ends.2⟩
  | acquire lock rest inductionHypothesis =>
    exact fun _ _ ends => ⟨inductionHypothesis _ _ _ ends.1, inductionHypothesis _ _ _ ends.2⟩
  | release lock rest inductionHypothesis =>
    exact fun _ _ ends => inductionHypothesis _ _ ends

variable {kept : File → Option Content} {own : List (Event File Content (Option Process))}

theorem Program.against_bind {First : Type} {program : Program File Content Lock First}
    {next : First → Program File Content Lock Result}
    {middle : Except String First → (File → Option Content) →
      List (Event File Content (Option Process)) → Prop}
    (first : program.against shared middle kept own)
    (second : ∀ result kept own, middle (.ok result) kept own →
      (next result).against shared post kept own)
    (failed : ∀ message kept own, middle (.error message) kept own →
      post (.error message) kept own) :
    (program >>= next).against shared post kept own := by
  refine against_andThen program kept own (against_mono (fun outcome kept own holds => ?_) program
    kept own first)
  cases outcome with
  | ok result => exact second result kept own holds
  | error message => exact failed message kept own holds

/-- A program under a lock ends as it does without, or with an error before it begins. -/
theorem Program.against_withLock {program : Program File Content Lock Result} (lock : Lock)
    (body : program.against shared post kept own)
    (gaveUp : post (.error "could not take lock") kept own) :
    (withLock lock program).against shared post kept own := by
  refine ⟨against_andThen program kept own (against_mono (fun outcome _ _ holds => ?_) program
    kept own body), gaveUp⟩
  cases outcome with
  | ok result => exact holds
  | error message => exact holds

theorem Program.against_writeFile_bind {next : Unit → Program File Content Lock Result}
    {file : File} {content : Content}
    (written : ∀ before, (¬ shared file → before = kept file) →
      (next ()).against shared post (Function.update kept file (some content))
        (.wrote none file before content :: own))
    (failed : post (.error "could not write") kept own) :
    (writeFile file content >>= next).against shared post kept own :=
  ⟨written, failed⟩

end Rules

/-! ### Among others that rewrite the files -/

variable [DecidableEq Lock] [DecidableEq Process]
variable {shared : File → Prop} {post : Except String Result → (File → Option Content) →
  List (Event File Content (Option Process)) → Prop}
  {kept : File → Option Content} {own : List (Event File Content (Option Process))}
  {state : State File Content Lock (Option Process)}

omit [DecidableEq File] [DecidableEq Lock] [DecidableEq Process] in
theorem Known.look (known : Known shared kept own state) (file : File) :
    Known shared kept (.read none file (state.files file) :: own) (state.look none file) :=
  ⟨known.files, congrArg (List.cons _) known.own⟩

omit [DecidableEq Lock] [DecidableEq Process] in
theorem Known.put (known : Known shared kept own state) (file : File) (content : Content) :
    Known shared (Function.update kept file (some content))
      (.wrote none file (state.files file) content :: own) (state.put none file content) := by
  refine ⟨fun other different => ?_, congrArg (List.cons _) known.own⟩
  show Function.update state.files file (some content) other = _
  by_cases same : other = file
  · rw [same, Function.update_self, Function.update_self]
  · rw [Function.update_of_ne same, Function.update_of_ne same]
    exact known.files other different

/-- The others change neither the kept files nor what the program did. -/
theorem stable_known :
    Stable (Interference (onlyRewriting shared)) 
      (@Known File Content Lock Process shared kept own) := by
  intro before after interference known
  cases interference with
  | idle => exact known
  | look process file => exact ⟨known.files, known.own⟩
  | put process file content permitted =>
    refine ⟨fun other kept => ?_, known.own⟩
    have different : other ≠ file := fun same => kept (same ▸ permitted)
    exact (Function.update_of_ne different _ _).trans (known.files other kept)
  | take process lock free => exact ⟨known.files, known.own⟩
  | free process lock => exact ⟨known.files, known.own⟩

/-- What the program is known to have done and to have kept when it ends. -/
def Ends (shared : File → Prop) (post : Except String Result → (File → Option Content) →
      List (Event File Content (Option Process)) → Prop) (outcome : Except String Result)
    (state : State File Content Lock (Option Process)) : Prop :=
  ∃ kept own, Known shared kept own state ∧ post outcome kept own

theorem Program.wp_of_against (program : Program File Content Lock Result) :
    ∀ kept own state, Known shared kept own state → program.against shared post kept own →
      program.wp (Interference (onlyRewriting shared)) none (Ends shared post) state := by
  induction program with
  | done result => exact fun kept own _ known ends => ⟨kept, own, known, ends⟩
  | fail message => exact fun kept own _ known ends => ⟨kept, own, known, ends⟩
  | read file next inductionHypothesis =>
    intro kept own state known ends
    exact wp_read stable_known known fun after known =>
      inductionHypothesis _ _ _ _ (known.look file) (ends _ (known.files file))
  | write file content next inductionHypothesis =>
    intro kept own state known ends
    exact wp_write stable_known known
      (fun after known => inductionHypothesis _ _ _ _ (known.put file content)
        (ends.1 _ (known.files file)))
      fun after known => inductionHypothesis _ _ _ _ known ends.2
  | acquire lock next inductionHypothesis =>
    intro kept own state known ends
    exact wp_acquire stable_known known
      (fun after known _ => inductionHypothesis _ _ _ _ ⟨known.files, known.own⟩ ends.1)
      fun after known => inductionHypothesis _ _ _ _ known ends.2
  | release lock next inductionHypothesis =>
    intro kept own state known ends
    exact wp_release stable_known known fun after known =>
      inductionHypothesis _ _ _ ⟨known.files, known.own⟩ ends

/-- The run lemma: a program that has not acted yet, among others that only rewrite the shared
files. -/
theorem System.against_completes {Other : Type}
    {start before after : System File Content Lock Process Result Other}
    {outcome : Except String Result} (disciplined : start.Disciplined (onlyRewriting shared))
    (fresh : start.state.trace = [])
    (ends : start.main.against shared post start.state.files [])
    (run : start.Reaches before) (completes : before.Completes after outcome) :
    Ends shared post outcome after.state := by
  have known : Known shared start.state.files [] start.state :=
    ⟨fun _ _ => rfl, by rw [State.own, fresh]; rfl⟩
  exact System.wp_completes disciplined (Program.wp_of_against _ _ _ _ known ends) run completes

end Interleaving
