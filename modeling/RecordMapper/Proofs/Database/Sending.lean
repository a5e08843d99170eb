import RecordMapper.Database.Queries
import RecordMapper.Database.Records
import RecordMapper.Proofs.Result

/-!
# What a session sends

From one state of a session to another certain statements have been sent: the connection has
received them, they have been counted and the listeners have heard them, all in the same order and
nothing else. Describing a model, choosing the dialect and writing statements send nothing, whether
they succeed or not. Sending a statement sends it, whether the connection takes it or refuses it.
-/

set_option autoImplicit false

namespace RecordMapper

def Statement.message (stmt : Statement) : Message := ⟨stmt.sql, stmt.params⟩

/-- The statistics when these statements have been recorded in order. -/
def Statistics.recordAll (t : Statistics) (stmts : List Statement) : Statistics :=
  stmts.foldl (fun t stmt => t.record (.classify stmt.sql) stmt.sql) t

@[simp] theorem Statistics.recordAll_append (t : Statistics) (stmts more : List Statement) :
    t.recordAll (stmts ++ more) = (t.recordAll stmts).recordAll more := List.foldl_append

/-- The connection after it has received some statements, in whatever way they were sent. -/
inductive Connection.Leads (c : Connection) : Connection → Prop
  | refl : Leads c c
  | execute {c' : Connection} (stmt : Statement) : Leads c c' → Leads c (c'.execute stmt).1
  | query {c' : Connection} (stmt : Statement) : Leads c c' → Leads c (c'.query stmt).1

theorem Connection.Leads.trans {a b c : Connection} (h : a.Leads b) (h' : b.Leads c) :
    a.Leads c := by
  induction h' with
  | refl => exact h
  | execute stmt _ ih => exact .execute stmt ih
  | query stmt _ ih => exact .query stmt ih

theorem Connection.Leads.received {c c' : Connection} (h : c.Leads c') :
    c.received <+: c'.received := by
  induction h with
  | refl => exact List.prefix_rfl
  | execute stmt _ ih =>
    rw [received_execute]
    exact ih.trans (List.prefix_append _ _)
  | query stmt _ ih =>
    rw [received_query]
    exact ih.trans (List.prefix_append _ _)

/-- A way in which a connection receives a statement. -/
structure IsWay {α : Type} (way : Connection → Statement → Connection × Except DriverError α) :
    Prop where
  received : ∀ c stmt, (way c stmt).1.received = c.received ++ [stmt.message]
  leads : ∀ (c : Connection) (stmt : Statement), c.Leads (way c stmt).1

theorem isWay_execute : IsWay Connection.execute where
  received := Connection.received_execute
  leads _ stmt := .execute stmt .refl

theorem isWay_query : IsWay Connection.query where
  received := Connection.received_query
  leads _ stmt := .query stmt .refl

@[simp] theorem Workspace.statistics_describe (w : Workspace) (model : Model) :
    (w.describe model).2.statistics = w.statistics := by
  unfold describe
  split
  · rfl
  · rcases model.build w.counter with ⟨_ | _, _⟩ <;> rfl

namespace SessionState

/-- The dialect that is used from this state on. -/
def dialect (s : SessionState) : Dialect := s.database.dialect.getD s.database.choose.1

/-- These statements and no others have been sent from the one state to the other. -/
structure Sent (s : SessionState) (stmts : List Statement) (s' : SessionState) : Prop where
  leads : s.database.connection.Leads s'.database.connection
  received : s'.database.connection.received =
    s.database.connection.received ++ stmts.map Statement.message
  statistics : s'.workspace.statistics = s.workspace.statistics.recordAll stmts

/-- A statement that has been sent on the way from the one state to the other was the last to be
received, and this was the answer. -/
def Answered {α : Type} (s : SessionState)
    (way : Connection → Statement → Connection × Except DriverError α)
    (answer : Except DriverError α) (s' : SessionState) : Prop :=
  ∃ c stmt, s.database.connection.Leads c ∧ way c stmt = (s'.database.connection, answer)

/-- The connection has refused a statement, and that is the error. -/
def Refused (s : SessionState) (e : Error) (s' : SessionState) : Prop :=
  ∃ fault : DriverError, e = fault.toError ∧
    (s.Answered Connection.execute (.error fault) s' ∨
      s.Answered Connection.query (.error fault) s')

section Sent
variable {s s' s'' : SessionState} {stmts more : List Statement} {e : Error}

theorem Sent.refl (s : SessionState) : s.Sent [] s := ⟨.refl, (List.append_nil _).symm, rfl⟩

theorem Sent.trans (h : s.Sent stmts s') (h' : s'.Sent more s'') : s.Sent (stmts ++ more) s'' where
  leads := h.leads.trans h'.leads
  received := by rw [h'.received, h.received, List.map_append, List.append_assoc]
  statistics := by rw [h'.statistics, h.statistics, Statistics.recordAll_append]

/-- As many statements have been sent as the connection has received. -/
theorem Sent.length_eq (h : s.Sent stmts s') (h' : s.Sent more s') :
    stmts.length = more.length := by
  have hreceived := congrArg List.length (h.received.symm.trans h'.received)
  simpa using hreceived

theorem Answered.trans {α : Type}
    {way : Connection → Statement → Connection × Except DriverError α}
    {answer : Except DriverError α} (h : s.Sent stmts s') (ha : s'.Answered way answer s'') :
    s.Answered way answer s'' := by
  obtain ⟨c, stmt, hleads, hanswer⟩ := ha
  exact ⟨c, stmt, h.leads.trans hleads, hanswer⟩

theorem Refused.trans (h : s.Sent stmts s') (hr : s'.Refused e s'') : s.Refused e s'' := by
  obtain ⟨fault, hfault, hanswered⟩ := hr
  exact ⟨fault, hfault, hanswered.imp (Answered.trans h) (Answered.trans h)⟩

/-- Where there is an answer, a statement has been sent. -/
theorem Answered.not_sent_nil {α : Type}
    {way : Connection → Statement → Connection × Except DriverError α} (hway : IsWay way)
    {answer : Except DriverError α} (ha : s.Answered way answer s') : ¬ s.Sent [] s' := by
  intro h
  obtain ⟨c, stmt, hleads, hanswer⟩ := ha
  have hlater : s'.database.connection.received = c.received ++ [stmt.message] := by
    rw [← hway.received, hanswer]
  have hsame : s'.database.connection.received = s.database.connection.received := by
    rw [h.received, List.map_nil, List.append_nil]
  have hle := hleads.received.length_le
  rw [← hsame, hlater, List.length_append, List.length_singleton] at hle
  omega

theorem Refused.not_sent_nil (hr : s.Refused e s') : ¬ s.Sent [] s' := by
  obtain ⟨fault, -, hanswered | hanswered⟩ := hr
  · exact hanswered.not_sent_nil isWay_execute
  · exact hanswered.not_sent_nil isWay_query

end Sent

end SessionState

namespace Session
variable {α β : Type} {s : SessionState}

theorem bind_eq_ok_iff {x : Session α} {f : α → Session β} {b : β} {s' : SessionState} :
    (x >>= f) s = .ok b s' ↔ ∃ a next, x s = .ok a next ∧ f a next = .ok b s' := by
  change EStateM.bind x f s = _ ↔ _
  rw [EStateM.bind]
  cases x s with
  | ok a next =>
    refine ⟨fun h => ⟨a, next, rfl, h⟩, ?_⟩
    rintro ⟨_, _, ⟨⟩, h⟩
    exact h
  | error e next => exact ⟨nofun, fun ⟨_, _, h, _⟩ => nomatch h⟩

theorem bind_eq_error_iff {x : Session α} {f : α → Session β} {e : Error} {s' : SessionState} :
    (x >>= f) s = .error e s' ↔
      x s = .error e s' ∨ ∃ a next, x s = .ok a next ∧ f a next = .error e s' := by
  change EStateM.bind x f s = _ ↔ _
  rw [EStateM.bind]
  cases x s with
  | ok a next =>
    refine ⟨fun h => .inr ⟨a, next, rfl, h⟩, ?_⟩
    rintro (h | ⟨_, _, ⟨⟩, h⟩)
    · cases h
    · exact h
  | error first next =>
    refine ⟨fun h => .inl ?_, ?_⟩
    · obtain ⟨rfl, rfl⟩ := EStateM.Result.error.inj h
      rfl
    · rintro (h | ⟨_, _, h, _⟩)
      · obtain ⟨rfl, rfl⟩ := EStateM.Result.error.inj h
        rfl
      · cases h

theorem ofResult_eq_ok_iff {result : Result α} {a : α} {s' : SessionState} :
    ofResult result s = .ok a s' ↔ result = .ok a ∧ s = s' := by
  cases result with
  | error e => exact ⟨nofun, nofun⟩
  | ok b =>
    constructor
    · intro h
      obtain ⟨rfl, rfl⟩ := EStateM.Result.ok.inj h
      exact ⟨rfl, rfl⟩
    · rintro ⟨⟨⟩, rfl⟩
      rfl

theorem ofResult_eq_error_iff {result : Result α} {e : Error} {s' : SessionState} :
    ofResult result s = .error e s' ↔ result = .error e ∧ s = s' := by
  cases result with
  | ok a => exact ⟨nofun, nofun⟩
  | error first =>
    constructor
    · intro h
      obtain ⟨rfl, rfl⟩ := EStateM.Result.error.inj h
      exact ⟨rfl, rfl⟩
    · rintro ⟨⟨⟩, rfl⟩
      rfl

@[simp] theorem get_apply (s : SessionState) : (get : Session SessionState) s = .ok s s := rfl

@[simp] theorem modify_apply (f : SessionState → SessionState) (s : SessionState) :
    (modify f : Session PUnit) s = .ok ⟨⟩ (f s) := rfl

/-- From this state the computation gives exactly this result, and sends nothing on the way. -/
def Prepares (x : Session α) (s : SessionState) (result : Result α) : Prop :=
  ∃ s', s.Sent [] s' ∧ s'.dialect = s.dialect ∧ x s = ofResult result s'

theorem prepares_ofResult (result : Result α) : Prepares (ofResult result) s result :=
  ⟨s, .refl s, rfl, rfl⟩

theorem prepares_describe (model : Model) :
    Prepares (describe model) s (s.workspace.describe model).1 := by
  refine ⟨{ s with workspace := (s.workspace.describe model).2 }, ⟨.refl, ?_, ?_⟩, rfl, rfl⟩
  · exact (List.append_nil _).symm
  · exact Workspace.statistics_describe s.workspace model

theorem prepares_dialect : Prepares dialect s (.ok s.dialect) := by
  unfold Prepares
  rw [SessionState.dialect]
  cases hd : s.database.dialect with
  | some d =>
    have hdialect : dialect s = .ok d s := by
      simp only [dialect, bind, EStateM.bind, get_apply, hd]
      rfl
    refine ⟨s, .refl s, ?_, hdialect⟩
    rw [SessionState.dialect, hd]
  | none =>
    simp only [dialect, bind, EStateM.bind, get_apply, hd, Option.getD_none]
    rcases s.database.choose with ⟨d, _ | e⟩
    · refine ⟨_, ?_, ?_, rfl⟩
      · exact ⟨.refl, (List.append_nil _).symm, rfl⟩
      · rfl
    · refine ⟨_, ?_, ?_, rfl⟩
      · exact ⟨.refl, (List.append_nil _).symm, rfl⟩
      · rfl

/-- What is done with a prepared result is done in a state from which nothing has been sent. -/
theorem Prepares.exists_bind_eq {x : Session α} {result : Result α} (h : Prepares x s result)
    (f : α → Session β) :
    ∃ s', s.Sent [] s' ∧ s'.dialect = s.dialect ∧ (x >>= f) s = (ofResult result >>= f) s' := by
  obtain ⟨s', hsent, hdialect, hx⟩ := h
  refine ⟨s', hsent, hdialect, ?_⟩
  change EStateM.bind x f s = EStateM.bind (ofResult result) f s'
  rw [EStateM.bind, EStateM.bind, hx]

theorem Prepares.bind {x : Session α} {result : Result α} (h : Prepares x s result)
    {f : α → Session β} {next : α → Result β}
    (hf : ∀ a s', s'.dialect = s.dialect → Prepares (f a) s' (next a)) :
    Prepares (x >>= f) s (result >>= next) := by
  obtain ⟨s', hsent, hdialect, hbind⟩ := h.exists_bind_eq f
  cases result with
  | error e => exact ⟨s', hsent, hdialect, hbind⟩
  | ok a =>
    obtain ⟨s'', hsent', hdialect', hnext⟩ := hf a s' hdialect
    exact ⟨s'', hsent.trans hsent', hdialect'.trans hdialect, hbind.trans hnext⟩

theorem prepares_write (draft : StatementDraft) :
    Prepares (write draft) s (do (← draft) s.dialect) := by
  refine (prepares_ofResult draft).bind fun written s' hdialect => ?_
  rw [← hdialect]
  exact (prepares_dialect (s := s')).bind fun d _ _ => prepares_ofResult (written d)

section Send
variable {way : Connection → Statement → Connection × Except DriverError α} {stmt : Statement}
  {s' : SessionState}

/-- A statement is sent whether the connection takes it or refuses it. -/
theorem send_cases (hway : IsWay way) (stmt : Statement) (s : SessionState) :
    ∃ s', s.Sent [stmt] s' ∧
      ((∃ a, send way stmt s = .ok a s' ∧ s.Answered way (.ok a) s') ∨
        ∃ fault : DriverError, send way stmt s = .error fault.toError s' ∧
          s.Answered way (.error fault) s') := by
  have hreceived := hway.received s.database.connection stmt
  have hleads := hway.leads s.database.connection stmt
  simp only [send, announce, log, bind, EStateM.bind, get_apply, modify_apply]
  rcases hanswer : way s.database.connection stmt with ⟨c, fault | a⟩
  · rw [hanswer] at hreceived hleads
    refine ⟨_, ?_, .inr ⟨fault, rfl, ?_⟩⟩
    · exact ⟨hleads, hreceived, rfl⟩
    · exact ⟨s.database.connection, stmt, .refl, hanswer⟩
  · rw [hanswer] at hreceived hleads
    refine ⟨_, ?_, .inl ⟨a, rfl, ?_⟩⟩
    · exact ⟨hleads, hreceived, rfl⟩
    · exact ⟨s.database.connection, stmt, .refl, hanswer⟩

theorem sent_of_send {a : α} (hway : IsWay way) (h : send way stmt s = .ok a s') :
    s.Sent [stmt] s' ∧ s.Answered way (.ok a) s' := by
  obtain ⟨next, hsent, ⟨b, hok, hanswered⟩ | ⟨fault, herror, -⟩⟩ := send_cases hway stmt s
  · obtain ⟨rfl, rfl⟩ := EStateM.Result.ok.inj (hok.symm.trans h)
    exact ⟨hsent, hanswered⟩
  · cases herror.symm.trans h

theorem sent_of_send_error {e : Error} (hway : IsWay way) (h : send way stmt s = .error e s') :
    s.Sent [stmt] s' ∧
      ∃ fault : DriverError, e = fault.toError ∧ s.Answered way (.error fault) s' := by
  obtain ⟨next, hsent, ⟨a, hok, -⟩ | ⟨fault, herror, hanswered⟩⟩ := send_cases hway stmt s
  · cases hok.symm.trans h
  · obtain ⟨rfl, rfl⟩ := EStateM.Result.error.inj (herror.symm.trans h)
    exact ⟨hsent, fault, rfl, hanswered⟩

end Send

/-- How the sending of certain statements may end: all of them have been sent, and perhaps an answer
could not be read; or the last that has been sent was refused. -/
structure Delivers (x : Session α) (s : SessionState) (stmts : List Statement)
    (Unreadable : Rows → Error → Prop) : Prop where
  sent : ∀ a s', x s = .ok a s' → s.Sent stmts s'
  failed : ∀ e s', x s = .error e s' →
    (s.Sent stmts s' ∧
        ∃ answer, s.Answered Connection.query (.ok answer) s' ∧ Unreadable answer e) ∨
      ∃ sent, sent <+: stmts ∧ s.Sent sent s' ∧ s.Refused e s'

section Delivers
variable {x : Session α} {stmts more : List Statement} {Unreadable : Rows → Error → Prop}

theorem delivers_pure (a : α) : Delivers (pure a) s [] Unreadable where
  sent b s' h := by
    obtain ⟨-, rfl⟩ := EStateM.Result.ok.inj h
    exact .refl s
  failed e s' h := nomatch h

theorem Delivers.map (h : Delivers x s stmts Unreadable) (f : α → β) :
    Delivers (do return f (← x)) s stmts Unreadable where
  sent b s' hb := by
    obtain ⟨a, next, hx, hb⟩ := bind_eq_ok_iff.mp hb
    obtain ⟨-, rfl⟩ := EStateM.Result.ok.inj hb
    exact h.sent a next hx
  failed e s' he := by
    rcases bind_eq_error_iff.mp he with hx | ⟨a, next, -, he⟩
    · exact h.failed e s' hx
    · cases he

/-- Statements are sent one after the other as long as none is refused. -/
theorem Delivers.bind (h : Delivers x s stmts fun _ _ => False) {f : α → Session β}
    (hf : ∀ a s', Delivers (f a) s' more Unreadable) :
    Delivers (x >>= f) s (stmts ++ more) Unreadable where
  sent b s' hb := by
    obtain ⟨a, next, hx, hb⟩ := bind_eq_ok_iff.mp hb
    exact (h.sent a next hx).trans ((hf a next).sent b s' hb)
  failed e s' he := by
    rcases bind_eq_error_iff.mp he with hx | ⟨a, next, hx, he⟩
    · rcases h.failed e s' hx with ⟨-, _, -, hfalse⟩ | ⟨sent, hprefix, hsent, hrefused⟩
      · exact hfalse.elim
      · exact .inr ⟨sent, hprefix.trans (List.prefix_append stmts more), hsent, hrefused⟩
    · have hsent := h.sent a next hx
      rcases (hf a next).failed e s' he with
        ⟨hmore, answer, hanswered, hunreadable⟩ | ⟨sent, hprefix, hmore, hrefused⟩
      · exact .inl ⟨hsent.trans hmore, answer, hanswered.trans hsent, hunreadable⟩
      · refine .inr ⟨stmts ++ sent, ?_, hsent.trans hmore, hrefused.trans hsent⟩
        exact (List.prefix_append_right_inj stmts).mpr hprefix

theorem delivers_execute (stmt : Statement) : Delivers (execute stmt) s [stmt] Unreadable where
  sent _ _ h := (sent_of_send isWay_execute h).1
  failed e s' h := by
    obtain ⟨hsent, fault, hfault, hanswered⟩ := sent_of_send_error isWay_execute h
    exact .inr ⟨[stmt], List.prefix_rfl, hsent, fault, hfault, .inl hanswered⟩

theorem delivers_executeAll (stmts : List Statement) (last : UInt64) :
    Delivers (executeAll stmts last) s stmts Unreadable := by
  induction stmts generalizing s last with
  | nil => exact delivers_pure last
  | cons stmt rest ih => exact (delivers_execute stmt).bind fun n s' => ih n

/-- An answer that cannot be read has been given to a statement that has been sent. -/
theorem delivers_read (stmt : Statement) {read : Rows → Result α}
    (hread : ∀ answer e, read answer = .error e → Unreadable answer e) :
    Delivers (do ofResult (read (← query stmt))) s [stmt] Unreadable where
  sent a s' h := by
    obtain ⟨answer, next, hanswer, h⟩ := bind_eq_ok_iff.mp h
    obtain ⟨-, rfl⟩ := ofResult_eq_ok_iff.mp h
    exact (sent_of_send isWay_query hanswer).1
  failed e s' h := by
    rcases bind_eq_error_iff.mp h with hrefused | ⟨answer, next, hanswer, h⟩
    · obtain ⟨hsent, fault, hfault, hanswered⟩ := sent_of_send_error isWay_query hrefused
      exact .inr ⟨[stmt], List.prefix_rfl, hsent, fault, hfault, .inr hanswered⟩
    · obtain ⟨hresult, rfl⟩ := ofResult_eq_error_iff.mp h
      obtain ⟨hsent, hanswered⟩ := sent_of_send isWay_query hanswer
      exact .inl ⟨hsent, answer, hanswered, hread answer e hresult⟩

theorem delivers_query (stmt : Statement) : Delivers (query stmt) s [stmt] Unreadable := by
  have hread : Delivers (do ofResult (.ok (← query stmt))) s [stmt] Unreadable :=
    delivers_read stmt nofun
  exact bind_pure (query stmt) ▸ hread

/-- Where a statement cannot be written, that is the outcome and nothing is sent; where all can be
written, they are sent. -/
structure WritesFirst (x : Session α) (s : SessionState) (written : Result (List Statement))
    (Unreadable : Rows → Error → Prop) : Prop where
  unwritten : ∀ e, written = .error e → ∃ s', x s = .error e s' ∧ s.Sent [] s'
  written : ∀ stmts, written = .ok stmts → Delivers x s stmts Unreadable

theorem Delivers.of_eq {y : Session α} {s' : SessionState} (hs : s.Sent [] s') (hx : x s = y s')
    (h : Delivers y s' stmts Unreadable) : Delivers x s stmts Unreadable where
  sent a s'' ha := hs.trans (h.sent a s'' (hx.symm.trans ha))
  failed e s'' he := by
    rcases h.failed e s'' (hx.symm.trans he) with
      ⟨hsent, answer, hanswered, hunreadable⟩ | ⟨sent, hprefix, hsent, hrefused⟩
    · exact .inl ⟨hs.trans hsent, answer, hanswered.trans hs, hunreadable⟩
    · exact .inr ⟨sent, hprefix, hs.trans hsent, hrefused.trans hs⟩

theorem WritesFirst.map {written : Result (List Statement)} (h : WritesFirst x s written Unreadable)
    (f : α → β) : WritesFirst (do return f (← x)) s written Unreadable where
  unwritten e he := by
    obtain ⟨s', hx, hsent⟩ := h.unwritten e he
    exact ⟨s', bind_eq_error_iff.mpr (.inl hx), hsent⟩
  written stmts hstmts := (h.written stmts hstmts).map f

/-- What is sent has been prepared. -/
theorem Prepares.writesFirst {y : Session β} {result : Result β} (h : Prepares y s result)
    {f : β → Session α} {written : β → List Statement}
    (hf : ∀ b s', Delivers (f b) s' (written b) Unreadable) :
    WritesFirst (y >>= f) s (result.map written) Unreadable := by
  obtain ⟨s', hsent, -, hbind⟩ := h.exists_bind_eq f
  cases result with
  | error e =>
    refine ⟨fun e' he => ?_, nofun⟩
    obtain rfl := Except.error.inj he
    exact ⟨s', hbind, hsent⟩
  | ok b =>
    refine ⟨nofun, fun stmts hstmts => ?_⟩
    obtain rfl := Except.ok.inj hstmts
    exact (hf b s').of_eq hsent hbind

/-- A failure has sent nothing exactly if it is neither a refusal nor an answer that cannot be
read. -/
theorem WritesFirst.sent_nil_iff {written : Result (List Statement)}
    (h : WritesFirst x s written Unreadable) {e : Error} {s' : SessionState}
    (he : x s = .error e s') :
    s.Sent [] s' ↔
      ¬ s.Refused e s' ∧
        ¬ ∃ answer, s.Answered Connection.query (.ok answer) s' ∧ Unreadable answer e := by
  constructor
  · intro hsent
    refine ⟨fun hrefused => hrefused.not_sent_nil hsent, ?_⟩
    rintro ⟨answer, hanswered, -⟩
    exact hanswered.not_sent_nil isWay_query hsent
  · rintro ⟨hrefused, hunreadable⟩
    cases hwritten : written with
    | error first =>
      obtain ⟨s'', hfirst, hsent⟩ := h.unwritten first hwritten
      obtain ⟨-, rfl⟩ := EStateM.Result.error.inj (hfirst.symm.trans he)
      exact hsent
    | ok stmts =>
      rcases (h.written stmts hwritten).failed e s' he with
        ⟨-, hanswer⟩ | ⟨_, -, -, hrefusal⟩
      · exact absurd hanswer hunreadable
      · exact absurd hrefusal hrefused

end Delivers

end Session

end RecordMapper
