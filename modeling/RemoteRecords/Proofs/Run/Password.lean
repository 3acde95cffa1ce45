import RemoteRecords.Proofs.Except
import RemoteRecords.Proofs.Session.Parallel
import RemoteRecords.Proofs.Settings.Password
import RemoteRecords.Run.Command

/-!
# The password in a run

Sessions that differ in the password alone hold parallel dialogues: the requests are the same up to
the password, and what comes of them is the same. So two runs that differ in the password alone end
in one outcome (`run_hides_password`).
-/

namespace RemoteRecords

open Session (Reply Request Dialogue)

/-! ## Sessions -/

namespace Session

/-- The same request but for the third argument, which is the password. -/
structure Request.DifferInPassword (password other : String) (request twin : Request) : Prop where
  url : twin.url = request.url
  service : twin.service = request.service
  method : twin.method = request.method
  arguments : twin.args.eraseIdx 2 = request.args.eraseIdx 2
  password : request.args[2]? = some (.string password)
  other : twin.args[2]? = some (.string other)

/-- The session with another password. -/
def withPassword (session : Session) (password : String) : Session :=
  { session with connection := session.connection.withPassword password }

/-- Dialogues with one and another password that come to the same end. -/
abbrev Alike {α : Type} (password other : String) (dialogue twin : Dialogue α) : Prop :=
  Dialogue.Parallel (Request.DifferInPassword password other) Eq dialogue twin

variable (session : Session) (other : String)

theorem alike_call {service method : String} {args otherArgs : List Json}
    (arguments : otherArgs.eraseIdx 2 = args.eraseIdx 2)
    (password : args[2]? = some (.string session.connection.password))
    (otherPassword : otherArgs[2]? = some (.string other)) :
    Alike session.connection.password other (session.call service method args)
      ((session.withPassword other).call service method otherArgs) :=
  .post ⟨rfl, rfl, rfl, arguments, password, otherPassword⟩ fun _ => .done rfl

theorem alike_execute {α : Type} (model method : String) (args : List Json)
    (read : Json → Except Error α) :
    Alike session.connection.password other (session.execute model method args read)
      ((session.withPassword other).execute model method args read) := by
  rw [execute, execute]
  have sameUser : (session.withPassword other).uid = session.uid := rfl
  rw [sameUser]
  cases session.uid with
  | none => exact .done rfl
  | some uid =>
      refine Dialogue.Parallel.map (alike_call session other ?_ ?_ ?_) ?_
      · rfl
      · rfl
      · rfl
      · rintro result _ rfl
        rfl

theorem parallel_login :
    Dialogue.Parallel (Request.DifferInPassword session.connection.password other)
      (fun ended twin => twin = (ended.1, ended.2.withPassword other) ∧
        ended.2.connection.password = session.connection.password)
      session.login (session.withPassword other).login := by
  refine Dialogue.Parallel.map (alike_call session other ?_ ?_ ?_) ?_
  · rfl
  · rfl
  · rfl
  · rintro result _ rfl
    dsimp only
    cases result.bind uidOf with
    | error error => exact ⟨rfl, rfl⟩
    | ok uid => exact ⟨rfl, rfl⟩

end Session

/-! ## Rows -/

namespace Import

open Session (Alike alike_execute)

variable (session : Session) (other model : String) (header : List String)

theorem alike_sendRow (row : List String) :
    Alike session.connection.password other (sendRow session model header row)
      (sendRow (session.withPassword other) model header row) := by
  rw [sendRow, sendRow]
  cases plan header row with
  | error error => exact .done rfl
  | ok planned =>
      cases planned with
      | create record =>
          refine (alike_execute session other _ _ _ _).map ?_
          rintro created _ rfl
          rfl
      | update id record =>
          refine (alike_execute session other _ _ _ _).map ?_
          rintro updated _ rfl
          rfl

theorem alike_sendRows (number : Nat) (rows : List (List String)) (state : State) :
    Alike session.connection.password other (sendRows session model header number rows state)
      (sendRows (session.withPassword other) model header number rows state) := by
  induction rows generalizing number state with
  | nil => exact .done rfl
  | cons row rows inductionHypothesis =>
      rw [sendRows, sendRows]
      refine (alike_sendRow session other model header row).bind ?_
      rintro result _ rfl
      cases result with
      | ok done => exact inductionHypothesis (number + 1) (state.accept done)
      | error reason =>
          dsimp only
          split
          · exact .done rfl
          · exact inductionHypothesis (number + 1) (state.reject ⟨number, reason⟩ row)

theorem alike_importRows (rows : List (List String)) (errors : Table.Writer) :
    Alike session.connection.password other (importRows session model header rows errors)
      (importRows (session.withPassword other) model header rows errors) := by
  refine (alike_sendRows session other model header 1 rows (start errors)).map ?_
  rintro state _ rfl
  rfl

end Import

/-! ## Commands -/

namespace Run

variable {platform : Platform}

/-- The same files, and variables that differ in texts for the password alone. -/
structure Surroundings.DifferInPassword (surroundings twin : Surroundings platform) : Prop where
  files : twin.files = surroundings.files
  environment : Settings.VariablesDifferInPassword surroundings.environment twin.environment

end Run

/-- The same arguments, up to the text of the password, which both give or neither does. -/
structure Invocation.DifferInPassword (invocation twin : Invocation) : Prop where
  rest : twin = { invocation with overrides := twin.overrides }
  overrides : invocation.overrides.DifferInPassword twin.overrides

namespace Run

variable {platform : Platform}

/-- The password that a run is given by its arguments or else by its environment. -/
def givenPassword? (surroundings : Surroundings platform) (invocation : Invocation) : Option String :=
  invocation.overrides.password.or (Settings.variableText? surroundings.environment .password)

section Steps

variable {α β γ δ : Type} {asks : Request → Request → Prop} {gives : α → β → Prop}
  {ends : γ → δ → Prop}

theorem parallel_andThen {step : Step α} {twin : Step β} {next : α → Step γ}
    {nextTwin : β → Step δ} (parallel : Dialogue.Parallel asks (Agree gives) step twin)
    (go : ∀ value other, gives value other →
      Dialogue.Parallel asks (Agree ends) (next value) (nextTwin other)) :
    Dialogue.Parallel asks (Agree ends) (andThen step next) (andThen twin nextTwin) := by
  refine parallel.bind ?_
  intro result twin agree
  cases agree with
  | error failure => exact .done (.error failure)
  | ok given => exact go _ _ given

theorem parallel_given {value : Except Failure α} {next : α → Step γ} {nextTwin : α → Step δ}
    (go : ∀ value, Dialogue.Parallel asks (Agree ends) (next value) (nextTwin value)) :
    Dialogue.Parallel asks (Agree ends) (given value next) (given value nextTwin) := by
  refine parallel_andThen (.done (Agree.refl value)) ?_
  rintro value _ rfl
  exact go value

theorem parallel_finish {surroundings surroundingsTwin : Surroundings platform} {step twin : Step Outcome}
    (files : surroundingsTwin.files = surroundings.files)
    (parallel : Dialogue.Parallel asks (Agree Eq) step twin) :
    Dialogue.Parallel asks Eq (finish surroundings step) (finish surroundingsTwin twin) := by
  refine parallel.map ?_
  intro result twin agree
  cases agree with
  | error failure => rw [files]
  | ok same => exact same

end Steps

section Commands

variable {surroundings surroundingsTwin : Surroundings platform} {invocation invocationTwin : Invocation}
  {password other : String}

/-- Two runs that differ in the password alone, with the passwords that they are given. -/
structure Counterparts (surroundings surroundingsTwin : Surroundings platform)
    (invocation invocationTwin : Invocation) (password other : String) : Prop where
  around : surroundings.DifferInPassword surroundingsTwin
  asked : invocation.DifferInPassword invocationTwin
  given : givenPassword? surroundings invocation = some password
  givenOther : givenPassword? surroundingsTwin invocationTwin = some other

theorem connectionOf_agree
    (runs : Counterparts surroundings surroundingsTwin invocation invocationTwin password other) :
    Agree (fun connection twin =>
        twin = connection.withPassword other ∧ connection.password = password)
      (connectionOf surroundings invocation) (connectionOf surroundingsTwin invocationTwin) := by
  obtain ⟨around, asked, given, givenOther⟩ := runs
  have config : invocationTwin.config = invocation.config := by rw [asked.rest]
  rw [connectionOf, connectionOf, config, around.files]
  refine Agree.mapError ?_ _
  have agree := Settings.load_agree platform.formats surroundings.files (some invocation.config) around.environment
    asked.overrides
  refine agree.imp ?_
  intro connection twin loaded loadedTwin same
  rw [Settings.load_password givenOther loadedTwin] at same
  exact ⟨same, Settings.load_password given loaded⟩

theorem sessionOf_agree
    (runs : Counterparts surroundings surroundingsTwin invocation invocationTwin password other) :
    Agree (fun session twin =>
        twin = session.withPassword other ∧ session.connection.password = password)
      (sessionOf surroundings invocation) (sessionOf surroundingsTwin invocationTwin) := by
  have agree := connectionOf_agree runs
  rw [sessionOf, sessionOf]
  generalize connectionOf surroundings invocation = first,
    connectionOf surroundingsTwin invocationTwin = second at agree ⊢
  cases agree with
  | error failure => exact .error failure
  | @ok connection _ given =>
      obtain ⟨rfl, held⟩ := given
      refine Agree.mapError ?_ _
      rw [Session.start, Session.start, Connection.endpoint_withPassword]
      cases connection.endpoint with
      | error fault => exact .error _
      | ok url => exact .ok ⟨rfl, held⟩

theorem parallel_connect
    (runs : Counterparts surroundings surroundingsTwin invocation invocationTwin password other) :
    Dialogue.Parallel (Request.DifferInPassword password other)
      (Agree fun session twin =>
        twin = session.withPassword other ∧ session.connection.password = password)
      (connect surroundings invocation) (connect surroundingsTwin invocationTwin) := by
  refine parallel_andThen (.done (sessionOf_agree runs)) ?_
  -- The login leaves sessions that still differ in the password alone.
  rintro session _ ⟨rfl, rfl⟩
  refine (session.parallel_login other).map ?_
  rintro ⟨answer, after⟩ _ ⟨rfl, held⟩
  cases answer with
  | error error => exact .error _
  | ok uid => exact .ok ⟨rfl, held⟩

theorem parallel_fetch (session : Session) (selection : Selection) (filter : Filter) :
    Dialogue.Parallel (Request.DifferInPassword session.connection.password other) (Agree Eq)
      (fetch session selection filter) (fetch (session.withPassword other) selection filter) := by
  refine (session.alike_execute other _ _ _ _).map ?_
  rintro records _ rfl
  exact Agree.refl _

theorem parallel_query
    (runs : Counterparts surroundings surroundingsTwin invocation invocationTwin password other)
    (selection : Selection) :
    Dialogue.Parallel (Request.DifferInPassword password other) (Agree Eq)
      (query surroundings invocation selection)
      (query surroundingsTwin invocationTwin selection) := by
  rw [query, query, runs.around.files]
  refine parallel_given fun filter => parallel_andThen (parallel_connect runs) ?_
  rintro session _ ⟨rfl, rfl⟩
  refine parallel_andThen (parallel_fetch session selection filter) ?_
  rintro records _ rfl
  exact .done (Agree.refl _)

theorem parallel_save
    (runs : Counterparts surroundings surroundingsTwin invocation invocationTwin password other)
    (selection : Selection) (file : DataFile) :
    Dialogue.Parallel (Request.DifferInPassword password other) (Agree Eq)
      (save surroundings invocation selection file)
      (save surroundingsTwin invocationTwin selection file) := by
  rw [save, save, runs.around.files]
  refine parallel_given fun filter => parallel_given fun separator =>
    parallel_andThen (parallel_connect runs) ?_
  rintro session _ ⟨rfl, rfl⟩
  refine parallel_andThen (parallel_fetch session selection filter) ?_
  rintro records _ rfl
  split
  · exact .done (Agree.refl _)
  · exact .done (Agree.refl _)

/-- Both runs have the same outcome already, or the same rows to send in sessions that differ in the
password alone. -/
abbrev Abreast (password other : String) : Outcome ⊕ Task → Outcome ⊕ Task → Prop :=
  Sum.LiftRel Eq fun task twin =>
    twin = { task with session := task.session.withPassword other } ∧
      task.session.connection.password = password

theorem parallel_prepare
    (runs : Counterparts surroundings surroundingsTwin invocation invocationTwin password other)
    (model : String) (offset limit : Nat) (file : DataFile) :
    Dialogue.Parallel (Request.DifferInPassword password other) (Agree (Abreast password other))
      (prepare surroundings invocation model offset limit file)
      (prepare surroundingsTwin invocationTwin model offset limit file) := by
  rw [prepare, prepare, runs.around.files]
  refine parallel_given fun separator => parallel_given fun table => ?_
  split
  · exact .done (.ok (.inl rfl))
  · split
    · exact .done (.ok (.inl rfl))
    · refine parallel_andThen (parallel_connect runs) ?_
      rintro session _ ⟨rfl, held⟩
      exact parallel_given fun names => .done (.ok (.inr ⟨rfl, held⟩))

theorem parallel_carryOut (task : Task) (files : FileTree) :
    Dialogue.Parallel (Request.DifferInPassword task.session.connection.password other) Eq
      (task.carryOut files)
      (Task.carryOut { task with session := task.session.withPassword other } files) := by
  refine (Import.alike_importRows task.session other _ _ _ _).map ?_
  rintro report _ rfl
  rfl

theorem parallel_send
    (runs : Counterparts surroundings surroundingsTwin invocation invocationTwin password other)
    (model : String) (offset limit : Nat) (file : DataFile) :
    Dialogue.Parallel (Request.DifferInPassword password other) (Agree Eq)
      (send surroundings invocation model offset limit file)
      (send surroundingsTwin invocationTwin model offset limit file) := by
  rw [send, send, runs.around.files]
  refine parallel_andThen (parallel_prepare runs model offset limit file) ?_
  rintro _ _ (⟨rfl⟩ | ⟨rfl, rfl⟩)
  · exact .done (Agree.refl _)
  · refine (parallel_carryOut _ _).map ?_
    rintro outcome _ rfl
    exact Agree.refl _

theorem parallel_run
    (runs : Counterparts surroundings surroundingsTwin invocation invocationTwin password other) :
    Dialogue.Parallel (Request.DifferInPassword password other) Eq
      (run surroundings invocation) (run surroundingsTwin invocationTwin) := by
  have command : invocationTwin.command = invocation.command := by rw [runs.asked.rest]
  rw [run, run, command]
  refine parallel_finish runs.around.files ?_
  cases invocation.command with
  | query selection => exact parallel_query runs selection
  | save selection file => exact parallel_save runs selection file
  | send model offset limit file => exact parallel_send runs model offset limit file

end Commands

end Run

end RemoteRecords
