import Mathlib.Data.List.TakeWhile
import RecordMapper.Site

/-!
# Transcripts

The transcript of a run is taken from what the connections have received. Between the statements it
notes when listeners come and go and when the counts are set back to zero.
-/

set_option autoImplicit false

namespace RecordMapper

inductive Entry
  /-- The connection of this database has received a statement. -/
  | handed (database : Nat) (m : Message)
  | subscribed (listener : Nat)
  | unsubscribed (listener : Nat)
  | reset
deriving DecidableEq

def Entry.message? : Entry → Option Message
  | handed _ m => some m
  | _ => none

/-- What the logs of the databases from number `i` on have gained. -/
def gained : (i : Nat) → (before after : List (List Message)) → List Entry
  | i, log :: before, log' :: after =>
    (log'.drop log.length).map (.handed i) ++ gained (i + 1) before after
  | _, _, _ => []

namespace Site

/-- What a command adds to the transcript; a new listener is entered with the number it is given. -/
def entries (s : Site) (c : Command) : List Entry :=
  let noted : List Entry :=
    match c with
    | .subscribe => [.subscribed s.workspace.statistics.subscribe.2]
    | .unsubscribe listener => [.unsubscribed listener]
    | .resetCounts => [.reset]
    | .connect _ _ | .newAlias _ | .refill _ | .use _ _ => []
  noted ++ gained 0 s.logs (s.step c).logs

def transcriptFrom : Site → List Command → List Entry
  | _, [] => []
  | s, c :: rest => s.entries c ++ transcriptFrom (s.step c) rest

def transcript (commands : List Command) : List Entry := transcriptFrom {} commands

end Site

namespace Entry

/-- The statements handed to any connection behind the last reset. -/
def sinceReset (entries : List Entry) : List Message :=
  ((entries.reverse.takeWhile (· ≠ .reset)).reverse).filterMap message?

/-- The entries from the subscription of a listener to its removal. -/
def attended (listener : Nat) (entries : List Entry) : List Entry :=
  (entries.dropWhile (· ≠ .subscribed listener)).takeWhile (· ≠ .unsubscribed listener)

def handedTo (database : Nat) (entries : List Entry) : List Message :=
  entries.filterMap fun e =>
    match e with
    | .handed i m => if i = database then some m else none
    | _ => none

end Entry

namespace Entry
variable {entries more : List Entry} {listener : Nat}

theorem sinceReset_append (h : .reset ∉ more) :
    sinceReset (entries ++ more) = sinceReset entries ++ more.filterMap message? := by
  have hall : ∀ e ∈ more.reverse, decide (e ≠ .reset) = true := by
    intro e he
    refine decide_eq_true ?_
    rintro rfl
    exact h (List.mem_reverse.mp he)
  rw [sinceReset, List.reverse_append, List.takeWhile_append_of_pos hall, List.reverse_append,
    List.reverse_reverse, List.filterMap_append, sinceReset]

theorem sinceReset_append_silent {e : Entry} (he : e.message? = none) (hreset : e ≠ .reset) :
    sinceReset (entries ++ [e]) = sinceReset entries := by
  rw [sinceReset_append (by simpa using hreset.symm), List.filterMap_cons, he]
  exact List.append_nil _

@[simp] theorem sinceReset_reset : sinceReset (entries ++ [.reset]) = [] := by
  simp [sinceReset]

/-- The listener has been subscribed and not been removed since. -/
def IsAttending (listener : Nat) (entries : List Entry) : Prop :=
  .subscribed listener ∈ entries ∧
    .unsubscribed listener ∉ entries.dropWhile (· ≠ .subscribed listener)

theorem dropWhile_append_of_subscribed (h : .subscribed listener ∈ entries) :
    (entries ++ more).dropWhile (· ≠ .subscribed listener) =
      entries.dropWhile (· ≠ .subscribed listener) ++ more := by
  rw [List.dropWhile_append, if_neg]
  rw [List.isEmpty_iff, List.dropWhile_eq_nil_iff]
  intro hall
  simpa using hall _ h

theorem dropWhile_of_not_subscribed (h : .subscribed listener ∉ entries) :
    entries.dropWhile (· ≠ .subscribed listener) = [] := by
  rw [List.dropWhile_eq_nil_iff]
  intro e he
  refine decide_eq_true ?_
  rintro rfl
  exact h he

theorem attended_of_not_subscribed (h : .subscribed listener ∉ entries) :
    attended listener entries = [] := by
  rw [attended, dropWhile_of_not_subscribed h, List.takeWhile_nil]

theorem attended_append_of_isAttending (h : IsAttending listener entries) :
    attended listener (entries ++ more) =
      attended listener entries ++ more.takeWhile (· ≠ .unsubscribed listener) := by
  have hall : ∀ e ∈ entries.dropWhile (· ≠ .subscribed listener),
      decide (e ≠ .unsubscribed listener) = true := by
    intro e he
    refine decide_eq_true ?_
    rintro rfl
    exact h.2 he
  rw [attended, dropWhile_append_of_subscribed h.1, List.takeWhile_append_of_pos hall, attended,
    List.takeWhile_eq_self_iff.mpr hall]

theorem attended_append_of_not_isAttending (h : ¬ IsAttending listener entries)
    (hmore : .subscribed listener ∉ more) :
    attended listener (entries ++ more) = attended listener entries := by
  by_cases hmem : .subscribed listener ∈ entries
  · have hremoved : .unsubscribed listener ∈ entries.dropWhile (· ≠ .subscribed listener) :=
      not_not.mp fun hnot => h ⟨hmem, hnot⟩
    rw [attended, attended, dropWhile_append_of_subscribed hmem, List.takeWhile_append, if_neg]
    intro hlength
    have hall := List.takeWhile_eq_self_iff.mp
      ((List.takeWhile_prefix _).eq_of_length hlength)
    simpa using hall _ hremoved
  · rw [attended_of_not_subscribed hmem, attended_of_not_subscribed]
    simp [hmem, hmore]

/-- A listener hears nothing of an entry without a statement, were it its own removal. -/
theorem messages_attended_append_silent {e : Entry} (he : e.message? = none)
    (hsubscribed : e ≠ .subscribed listener) :
    (attended listener (entries ++ [e])).filterMap message? =
      (attended listener entries).filterMap message? := by
  by_cases hattending : IsAttending listener entries
  · rw [attended_append_of_isAttending hattending, List.filterMap_append, List.takeWhile_cons]
    split <;> simp [he]
  · rw [attended_append_of_not_isAttending hattending (by simpa using hsubscribed.symm)]

/-- Whether a listener attends is not changed by entries that are not about it. -/
theorem isAttending_append_iff (hsubscribed : .subscribed listener ∉ more)
    (hunsubscribed : .unsubscribed listener ∉ more) :
    IsAttending listener (entries ++ more) ↔ IsAttending listener entries := by
  by_cases hmem : .subscribed listener ∈ entries
  · rw [IsAttending, IsAttending, dropWhile_append_of_subscribed hmem]
    simp [hmem, hunsubscribed]
  · refine iff_of_false (fun h => ?_) fun h => hmem h.1
    rcases List.mem_append.mp h.1 with hold | hnew
    · exact hmem hold
    · exact hsubscribed hnew

end Entry

@[simp] theorem gained_append (i : Nat) (logs more : List (List Message)) :
    gained i logs (logs ++ more) = [] := by
  induction logs generalizing i with
  | nil => rfl
  | cons log logs ih => rw [List.cons_append, gained, List.drop_length, ih, List.map_nil,
      List.append_nil]

@[simp] theorem gained_self (i : Nat) (logs : List (List Message)) : gained i logs logs = [] := by
  have hnothing := gained_append i logs []
  rwa [List.append_nil] at hnothing

theorem gained_set (i : Nat) {logs : List (List Message)} {k : Nat} {log : List Message}
    (h : logs[k]? = some log) (more : List Message) :
    gained i logs (logs.set k (log ++ more)) = more.map (.handed (i + k)) := by
  induction logs generalizing i k with
  | nil => nomatch h
  | cons first logs ih =>
    cases k with
    | zero =>
      obtain rfl : first = log := by simpa using h
      rw [List.set_cons_zero, gained, List.drop_left, gained_self, List.append_nil, Nat.add_zero]
    | succ k =>
      rw [List.set_cons_succ, gained, List.drop_length, List.map_nil, List.nil_append,
        ih (i + 1) (by simpa using h), Nat.add_right_comm, Nat.add_assoc]

namespace Entry

@[simp] theorem handedTo_append (i : Nat) (entries more : List Entry) :
    handedTo i (entries ++ more) = handedTo i entries ++ handedTo i more :=
  List.filterMap_append

theorem handedTo_handed (i k : Nat) (ms : List Message) :
    handedTo i (ms.map (.handed k)) = if k = i then ms else [] := by
  rw [handedTo, List.filterMap_map]
  change ms.filterMap (fun m => if k = i then some m else none) = _
  split
  · exact List.filterMap_some
  · exact List.filterMap_eq_nil_iff.mpr fun _ _ => rfl

end Entry

end RecordMapper
