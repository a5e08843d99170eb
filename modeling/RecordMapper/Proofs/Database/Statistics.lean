import Mathlib.Data.List.Nodup
import RecordMapper.Proofs.Database.Accounting
import RecordMapper.Proofs.Database.Transcript

/-!
# The statistics of a run

Several databases share one workspace, and its statistics. The transcript of a run says what they
have to be: the counts are those of the statements since the last reset, and each listener has
heard the statements that were sent while it was subscribed, in order.

Counts and the numbers of listeners are natural numbers here and never wrap.
-/

set_option autoImplicit false

namespace RecordMapper

def Message.kind (m : Message) : StatementKind := .classify m.sql

/-- What one listener has heard, in order. -/
def Statistics.heardBy (t : Statistics) (listener : Nat) : List (StatementKind × String) :=
  (t.heard.filter (·.listener = listener)).map fun h => (h.kind, h.sql)

namespace Statistics
variable {t : Statistics}

theorem heardBy_record (h : t.listeners.Nodup) (kind : StatementKind) (sql : String)
    (listener : Nat) :
    (t.record kind sql).heardBy listener =
      t.heardBy listener ++ if listener ∈ t.listeners then [(kind, sql)] else [] := by
  have honce : t.listeners.filter (· = listener) =
      if listener ∈ t.listeners then [listener] else [] := by
    rw [List.filter_eq]
    split
    · next hmem => rw [List.count_eq_one_of_mem h hmem, List.replicate_one]
    · next hmem => rw [List.count_eq_zero_of_not_mem hmem, List.replicate_zero]
  rw [heardBy, record, List.filter_append, List.map_append, List.filter_map, List.map_map]
  change _ ++ (t.listeners.filter (· = listener)).map _ = _
  rw [honce]
  split <;> rfl

/-- What holds of the statistics once some statements have been recorded. -/
structure Recorded (t : Statistics) (ms : List Message) (t' : Statistics) : Prop where
  count : ∀ kind, t'.count kind = t.count kind + ms.countP (·.kind = kind)
  total : t'.total = t.total + ms.length
  listeners : t'.listeners = t.listeners
  next : t'.next = t.next
  heardBy : t.listeners.Nodup → ∀ listener, t'.heardBy listener =
    t.heardBy listener ++ if listener ∈ t.listeners then ms.map fun m => (m.kind, m.sql) else []

theorem recorded_recordAll (t : Statistics) (stmts : List Statement) :
    t.Recorded (stmts.map Statement.message) (t.recordAll stmts) := by
  induction stmts generalizing t with
  | nil =>
    refine ⟨fun _ => rfl, rfl, rfl, rfl, fun _ listener => ?_⟩
    split <;> exact (List.append_nil _).symm
  | cons stmt rest ih =>
    have hfirst := ih (t.record stmt.message.kind stmt.sql)
    change t.Recorded (stmt.message :: rest.map Statement.message)
      ((t.record stmt.message.kind stmt.sql).recordAll rest)
    refine ⟨fun kind => ?_, ?_, hfirst.listeners, hfirst.next, fun hnodup listener => ?_⟩
    · rw [hfirst.count, count_record, List.countP_cons]
      by_cases hkind : kind = stmt.message.kind
      · simp [hkind, Nat.add_assoc, Nat.add_comm 1]
      · simp [hkind, Ne.symm hkind]
    · rw [hfirst.total, total_record, List.length_cons]
      omega
    · rw [hfirst.heardBy hnodup, heardBy_record hnodup, List.append_assoc]
      change _ ++ (_ ++ if listener ∈ t.listeners then _ else _) = _
      split <;> rfl

end Statistics

/-- The statistics are as the transcript has it. The listeners are those that attend, and their
numbers are below the next one, so a new listener has a number that no other has had. -/
structure Statistics.Agrees (t : Statistics) (entries : List Entry) : Prop where
  count : ∀ kind, t.count kind = (Entry.sinceReset entries).countP (·.kind = kind)
  total : t.total = (Entry.sinceReset entries).length
  heard : ∀ listener, t.heardBy listener =
    ((Entry.attended listener entries).filterMap Entry.message?).map fun m => (m.kind, m.sql)
  attending : ∀ listener, listener ∈ t.listeners ↔ Entry.IsAttending listener entries
  nodup : t.listeners.Nodup
  numbered : ∀ listener, .subscribed listener ∈ entries → listener < t.next
  once : ∀ listener, entries.count (.subscribed listener) ≤ 1

namespace Statistics.Agrees

open Entry

variable {t : Statistics} {entries : List Entry}

theorem attended_of_not_mem (h : t.Agrees entries) {listener : Nat} (hl : listener ∉ t.listeners)
    {more : List Entry} (hmore : .subscribed listener ∉ more) :
    attended listener (entries ++ more) = attended listener entries :=
  attended_append_of_not_isAttending (mt (h.attending listener).mpr hl) hmore

/-- Statements are handed to one connection. -/
theorem handed (h : t.Agrees entries) {t' : Statistics} {ms : List Message}
    (ht : t.Recorded ms t') (i : Nat) : t'.Agrees (entries ++ ms.map (.handed i)) := by
  have hplain {e : Entry} (he : e.message? = none) : e ∉ ms.map (Entry.handed i) := by
    rintro hmem
    obtain ⟨m, -, rfl⟩ := List.mem_map.mp hmem
    cases he
  have hmessages : (ms.map (Entry.handed i)).filterMap message? = ms := by
    rw [List.filterMap_map]
    exact List.filterMap_some
  have hsince : sinceReset (entries ++ ms.map (Entry.handed i)) = sinceReset entries ++ ms := by
    rw [sinceReset_append (hplain rfl), hmessages]
  refine ⟨fun kind => ?_, ?_, fun listener => ?_, fun listener => ?_, ?_, fun listener hmem => ?_,
    fun listener => ?_⟩
  · rw [ht.count, h.count, hsince, List.countP_append]
  · rw [ht.total, h.total, hsince, List.length_append]
  · rw [ht.heardBy h.nodup, h.heard]
    split
    · next hl =>
      have hall : (ms.map (Entry.handed i)).takeWhile (· ≠ .unsubscribed listener) =
          ms.map (Entry.handed i) := by
        rw [List.takeWhile_eq_self_iff]
        intro e he
        refine decide_eq_true ?_
        rintro rfl
        exact hplain rfl he
      rw [attended_append_of_isAttending ((h.attending listener).mp hl), hall,
        List.filterMap_append, hmessages, List.map_append]
    · next hl => rw [h.attended_of_not_mem hl (hplain rfl), List.append_nil]
  · rw [ht.listeners, h.attending, isAttending_append_iff (hplain rfl) (hplain rfl)]
  · rw [ht.listeners]
    exact h.nodup
  · rw [ht.next]
    refine h.numbered listener ((List.mem_append.mp hmem).resolve_right ?_)
    exact hplain rfl
  · rw [List.count_append, List.count_eq_zero_of_not_mem (hplain rfl)]
    exact h.once listener

/-- A new listener attends from now on and has heard nothing yet. -/
theorem subscribe (h : t.Agrees entries) :
    t.subscribe.1.Agrees (entries ++ [.subscribed t.subscribe.2]) := by
  change t.subscribe.1.Agrees (entries ++ [.subscribed t.next])
  have hnew : .subscribed t.next ∉ entries := fun hmem => Nat.lt_irrefl _ (h.numbered _ hmem)
  have hsince : sinceReset (entries ++ [.subscribed t.next]) = sinceReset entries :=
    sinceReset_append_silent rfl nofun
  have hfirst : attended t.next (entries ++ [.subscribed t.next]) = [.subscribed t.next] := by
    rw [attended, List.dropWhile_append, dropWhile_of_not_subscribed hnew]
    simp
  refine ⟨fun kind => ?_, ?_, fun listener => ?_, fun listener => ?_, ?_, fun listener hmem => ?_,
    fun listener => ?_⟩
  · exact (h.count kind).trans (by rw [hsince])
  · exact h.total.trans (by rw [hsince])
  · change t.heardBy listener = _
    rw [h.heard]
    by_cases hl : listener = t.next
    · subst hl
      rw [attended_of_not_subscribed hnew, hfirst]
      rfl
    · have hother : Entry.subscribed t.next ≠ .subscribed listener := by simpa using Ne.symm hl
      rw [messages_attended_append_silent rfl hother]
  · change listener ∈ t.listeners ++ [t.next] ↔ _
    by_cases hl : listener = t.next
    · subst hl
      refine iff_of_true (by simp) ⟨by simp, ?_⟩
      rw [List.dropWhile_append, dropWhile_of_not_subscribed hnew]
      simp
    · have hother : .subscribed listener ∉ [Entry.subscribed t.next] := by
        simpa using hl
      rw [isAttending_append_iff hother (by simp), ← h.attending]
      simp [hl]
  · change (t.listeners ++ [t.next]).Nodup
    refine List.nodup_append.mpr ⟨h.nodup, by simp, ?_⟩
    rintro listener hl _ hnext rfl
    obtain rfl := List.mem_singleton.mp hnext
    exact hnew ((h.attending _).mp hl).1
  · change listener < t.next + 1
    rcases List.mem_append.mp hmem with hold | hlast
    · exact Nat.lt_succ_of_lt (h.numbered listener hold)
    · obtain ⟨rfl⟩ := Entry.subscribed.inj (List.mem_singleton.mp hlast)
      exact Nat.lt_succ_self _
  · rw [List.count_append]
    by_cases hl : listener = t.next
    · rw [hl, List.count_eq_zero_of_not_mem hnew, List.count_singleton_self]
    · rw [List.count_eq_zero_of_not_mem (l := [_]) (by simpa using hl)]
      exact h.once listener

theorem unsubscribe (h : t.Agrees entries) (removed : Nat) :
    (t.unsubscribe removed).1.Agrees (entries ++ [.unsubscribed removed]) := by
  have hsince : sinceReset (entries ++ [.unsubscribed removed]) = sinceReset entries :=
    sinceReset_append_silent rfl nofun
  refine ⟨fun kind => ?_, ?_, fun listener => ?_, fun listener => ?_, ?_, fun listener hmem => ?_,
    fun listener => ?_⟩
  · exact (h.count kind).trans (by rw [hsince])
  · exact h.total.trans (by rw [hsince])
  · change t.heardBy listener = _
    rw [h.heard, messages_attended_append_silent (e := .unsubscribed removed) rfl nofun]
  · change listener ∈ t.listeners.filter (· != removed) ↔ _
    by_cases hl : listener = removed
    · subst hl
      refine iff_of_false (by simp) fun hattending => hattending.2 ?_
      have hmem : .subscribed listener ∈ entries := by simpa using hattending.1
      rw [dropWhile_append_of_subscribed hmem]
      simp
    · have hother : .unsubscribed listener ∉ [Entry.unsubscribed removed] := by simpa using hl
      rw [isAttending_append_iff (by simp) hother, ← h.attending]
      simp [hl]
  · exact h.nodup.filter _
  · exact h.numbered listener (by simpa using hmem)
  · rw [List.count_append]
    exact h.once listener

/-- The counts begin anew, and the listeners stay. -/
theorem reset (h : t.Agrees entries) : t.reset.Agrees (entries ++ [.reset]) where
  count kind := by
    rw [sinceReset_reset]
    rfl
  total := by
    rw [sinceReset_reset]
    rfl
  heard listener := by
    change t.heardBy listener = _
    rw [h.heard, messages_attended_append_silent (e := .reset) rfl nofun]
  attending listener := by
    rw [isAttending_append_iff (by simp) (by simp), ← h.attending]
    rfl
  nodup := h.nodup
  numbered listener hmem := h.numbered listener (by simpa using hmem)
  once listener := by
    rw [List.count_append]
    exact h.once listener

end Statistics.Agrees

@[simp] theorem Workspace.statistics_newAlias (w : Workspace) (model : Model) :
    (w.newAlias model).2.statistics = w.statistics := by
  have hdescribe := w.statistics_describe model
  unfold newAlias
  cases houtcome : w.describe model with
  | mk outcome next =>
    rw [houtcome] at hdescribe
    cases outcome with
    | error e => exact hdescribe
    | ok mapping => exact hdescribe

namespace Site
variable {s : Site} {entries : List Entry}

/-- The transcript says what the connections have received and what the statistics are. -/
structure Agrees (s : Site) (entries : List Entry) : Prop where
  statistics : s.workspace.statistics.Agrees entries
  received : ∀ i, s.logs.getD i [] = Entry.handedTo i entries

theorem agrees_empty : Agrees {} [] where
  statistics :=
    { count := fun _ => rfl
      total := rfl
      heard := fun _ => rfl
      attending := fun _ => iff_of_false List.not_mem_nil fun h => List.not_mem_nil h.1
      nodup := List.nodup_nil
      numbered := fun _ h => nomatch h
      once := fun _ => Nat.zero_le _ }
  received i := by simp [logs, Entry.handedTo]

/-- A use hands statements to the connection of the database that is used, and to no other. -/
theorem Agrees.use (h : s.Agrees entries) (i : Nat) (usage : Usage) :
    (s.use i usage).Agrees (entries ++ gained 0 s.logs (s.use i usage).logs) := by
  cases hdatabase : s.databases[i]? with
  | none =>
    rw [Site.use, hdatabase, gained_self, List.append_nil]
    exact h
  | some database =>
    obtain ⟨stmts, hsent⟩ := usage.exists_sent ⟨s.workspace, database⟩
    have hlog : s.logs[i]? = some database.connection.received := by
      rw [logs, List.getElem?_map, hdatabase]
      rfl
    have hlogs : (s.use i usage).logs =
        s.logs.set i (database.connection.received ++ stmts.map Statement.message) := by
      rw [Site.use, hdatabase, logs, List.map_set, hsent.received, logs]
    have hgained := gained_set 0 hlog (stmts.map Statement.message)
    rw [Nat.zero_add] at hgained
    rw [hlogs, hgained]
    refine ⟨?_, fun k => ?_⟩
    · rw [Site.use, hdatabase]
      refine h.statistics.handed ?_ i
      rw [hsent.statistics]
      exact Statistics.recorded_recordAll _ stmts
    · rw [hlogs, Entry.handedTo_append, Entry.handedTo_handed, ← h.received]
      split
      · next heq =>
        subst heq
        obtain ⟨hlt, hget⟩ := List.getElem?_eq_some_iff.mp hlog
        simp [hlt, hget]
      · next hne => simp [hne]

/-- The statistics know nothing of what else happens in the workspace. -/
theorem Agrees.onWorkspace (h : s.Agrees entries) {w : Workspace}
    (hw : w.statistics = s.workspace.statistics) :
    ({ s with workspace := w } : Site).Agrees (entries ++ ([] ++ gained 0 s.logs s.logs)) := by
  rw [gained_self, List.append_nil, List.append_nil]
  refine ⟨?_, h.received⟩
  rw [hw]
  exact h.statistics

/-- Where only the statistics change, the connections receive nothing. -/
theorem Agrees.onStatistics (h : s.Agrees entries) (change : Statistics → Statistics) {e : Entry}
    (he : e.message? = none) (ht : (change s.workspace.statistics).Agrees (entries ++ [e])) :
    (s.onStatistics change).Agrees
      (entries ++ ([e] ++ gained 0 s.logs (s.onStatistics change).logs)) := by
  have hlogs : (s.onStatistics change).logs = s.logs := rfl
  rw [hlogs, gained_self, List.append_nil]
  refine ⟨ht, fun i => ?_⟩
  rw [hlogs, h.received, Entry.handedTo_append]
  cases e with
  | handed k m => nomatch he
  | subscribed => exact (List.append_nil _).symm
  | unsubscribed => exact (List.append_nil _).symm
  | reset => exact (List.append_nil _).symm

theorem Agrees.step (h : s.Agrees entries) (c : Command) :
    (s.step c).Agrees (entries ++ s.entries c) := by
  cases c with
  | connect connection settings =>
    have hlogs : (s.step (.connect connection settings)).logs = s.logs ++ [[]] :=
      List.map_append
    rw [Site.entries, hlogs, gained_append, List.append_nil, List.append_nil]
    refine ⟨h.statistics, fun i => ?_⟩
    -- beyond the last database there is no log, which is as good as an empty one
    rw [hlogs, ← h.received, List.getD_eq_getElem?_getD, List.getD_eq_getElem?_getD,
      List.getElem?_append]
    split
    · rfl
    · next hlast =>
      rw [List.getElem?_eq_none (Nat.le_of_not_lt hlast)]
      cases i - s.logs.length <;> rfl
  | newAlias model => exact h.onWorkspace (s.workspace.statistics_newAlias model)
  | refill a => exact h.onWorkspace rfl
  | use i usage => exact h.use i usage
  | subscribe => exact h.onStatistics (fun t => t.subscribe.1) rfl h.statistics.subscribe
  | unsubscribe listener =>
    exact h.onStatistics (fun t => (t.unsubscribe listener).1) rfl
      (h.statistics.unsubscribe listener)
  | resetCounts => exact h.onStatistics Statistics.reset rfl h.statistics.reset

theorem Agrees.foldl (h : s.Agrees entries) (commands : List Command) :
    (commands.foldl Site.step s).Agrees (entries ++ s.transcriptFrom commands) := by
  induction commands generalizing s entries with
  | nil =>
    rw [transcriptFrom, List.append_nil]
    exact h
  | cons c rest ih =>
    rw [transcriptFrom, ← List.append_assoc]
    exact ih (h.step c)

/-- The statistics of a run are those that its transcript calls for. The transcript has every
statement that a connection has received, in order, and gives no number to two listeners. -/
theorem statistics_run (commands : List Command) :
    let t := (run commands).workspace.statistics
    let entries := transcript commands
    (∀ kind, t.count kind = (Entry.sinceReset entries).countP (·.kind = kind)) ∧
      t.total = (Entry.sinceReset entries).length ∧
      (∀ listener, t.heardBy listener =
        ((Entry.attended listener entries).filterMap Entry.message?).map
          fun m => (m.kind, m.sql)) ∧
      (∀ listener, entries.count (.subscribed listener) ≤ 1) ∧
      ∀ i, (run commands).logs.getD i [] = Entry.handedTo i entries := by
  intro t entries
  have hagrees : (run commands).Agrees entries := agrees_empty.foldl commands
  exact ⟨hagrees.statistics.count, hagrees.statistics.total, hagrees.statistics.heard,
    hagrees.statistics.once, hagrees.received⟩

end Site

end RecordMapper
