import RecordMapper.Registry

/-!
# Draws

A filling takes values from the counter at several moments: as many as there are fields at once,
and then one whenever a sentinel has to be drawn again. Others may draw in between. Here a filling
is the tree of its draws, which waits at each of them for the value that it is given; run alone, it
is the filling of the registry.
-/

set_option autoImplicit false

namespace RecordMapper

/-- A computation that draws from the counter. -/
inductive Drawing (α : Type)
  | done (a : α)
  /-- Takes the next `n` values of the counter, and goes on with the first of them. -/
  | draw (n : Nat) (next : UInt32 → Drawing α)

namespace Drawing
variable {α β : Type}

def bind : Drawing α → (α → Drawing β) → Drawing β
  | done a, f => f a
  | draw n next, f => draw n fun seq => (next seq).bind f

/-- The result if nobody else draws, with the counter as it is then. -/
def alone : Drawing α → UInt32 → α × UInt32
  | done a, counter => (a, counter)
  | draw n next, counter => (next counter).alone (Sentinel.advance counter n)

theorem alone_bind (d : Drawing α) (f : α → Drawing β) (counter : UInt32) :
    (d.bind f).alone counter = (f (d.alone counter).1).alone (d.alone counter).2 := by
  induction d generalizing counter with
  | done a => rfl
  | draw n next ih => exact ih counter _

end Drawing

namespace Refill

/-- The counter of the result is the one behind the latest draw. -/
def redrawing (owner : Nat) (f : FieldMapping) :
    (fuel : Nat) → Refill → Key → Drawing (Refill × Result Key)
  | fuel, r, key =>
    if key.isByValue && r.has key then
      match fuel with
      | 0 => .done (r, .error (.noSentinel f.column.fieldName .noDistinctValue))
      | fuel + 1 => .draw 1 fun seq =>
        let drawn := { r with counter := Sentinel.advance seq 1 }
        match drawn.assign owner f seq with
        | .error e => .done (drawn, .error e)
        | .ok (next, key) => redrawing owner f fuel next key
    else .done (r, .ok key)

def filling (owner : Nat) :
    List FieldMapping → (i : Nat) → (seq : UInt32) → Refill → Drawing (Refill × Result Unit)
  | [], _, _, r => .done (r, .ok ())
  | f :: rest, i, seq, r =>
    match r.assign owner f seq with
    | .error e => .done (r, .error e)
    | .ok (assigned, key) =>
      (redrawing owner f maxRedraws assigned key).bind fun
        | (tried, .error e) => .done (tried, .error e)
        | (settled, .ok key) =>
          filling owner rest (i + 1) (seq + 1) { settled with keys := enter key i settled.keys }

variable {owner : Nat} {f : FieldMapping}

theorem alone_redrawing (fuel : Nat) (r : Refill) (key : Key) :
    (redrawing owner f fuel r key).alone r.counter =
      (redraw owner f fuel r key, (redraw owner f fuel r key).1.counter) := by
  induction fuel generalizing r key with
  | zero =>
    unfold redrawing redraw
    split <;> rfl
  | succ fuel ih =>
    unfold redrawing redraw
    split
    · dsimp only [Drawing.alone]
      cases hassign : Refill.assign { r with counter := Sentinel.advance r.counter 1 } owner f
        r.counter with
      | error e => rfl
      | ok drawn =>
        obtain ⟨next, key'⟩ := drawn
        obtain ⟨v, -, rfl, -⟩ := assign_eq_ok hassign
        exact ih { r with
          counter := Sentinel.advance r.counter 1
          record := r.record.set f.slot v } key'
    · rfl

theorem alone_filling (fields : List FieldMapping) (i : Nat) (seq : UInt32) (r : Refill) :
    (filling owner fields i seq r).alone r.counter =
      (fill owner fields i seq r, (fill owner fields i seq r).1.counter) := by
  induction fields generalizing i seq r with
  | nil => rfl
  | cons f rest ih =>
    unfold filling fill
    cases hassign : r.assign owner f seq with
    | error e => rfl
    | ok assigned =>
      obtain ⟨assigned, key⟩ := assigned
      obtain ⟨v, -, hassigned, -⟩ := assign_eq_ok hassign
      have hcounter : assigned.counter = r.counter := by rw [hassigned]
      dsimp only
      rw [Drawing.alone_bind, ← hcounter, alone_redrawing]
      rcases redraw owner f maxRedraws assigned key with ⟨settled, e | last⟩
      · rfl
      · exact ih (i + 1) (seq + 1) { settled with keys := enter last i settled.keys }

end Refill

/-- The draws of `Registry.generate`. -/
def Registry.generating (g : Registry) (owner : Nat) (fields : List FieldMapping)
    (record : Record) : Drawing Generation :=
  .draw fields.length fun seq =>
    let start : Refill := { counter := Sentinel.advance seq fields.length, record }
    (Refill.filling owner fields 0 seq start).bind fun
      | (r, .ok ()) => .done ⟨g.succeed r.keys, r.record, r.counter, .ok ()⟩
      | (r, .error e) => .done ⟨g, r.record, r.counter, .error e⟩

theorem Registry.alone_generating (g : Registry) (owner : Nat) (fields : List FieldMapping)
    (record : Record) (counter : UInt32) :
    (g.generating owner fields record).alone counter =
      (g.generate owner fields record counter, (g.generate owner fields record counter).counter) := by
  let start : Refill := { counter := Sentinel.advance counter fields.length, record }
  have hfill := @Refill.alone_filling owner fields 0 counter start
  unfold generating generate
  dsimp only [Drawing.alone]
  rw [Drawing.alone_bind, hfill]
  rcases Refill.fill owner fields 0 counter start with ⟨r, e | ⟨⟩⟩ <;> rfl

end RecordMapper
