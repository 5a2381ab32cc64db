import RecordMapping.Repository
/-!
What a session answers in a given state, and the state that it leaves.
-/
namespace RecordMapping.Session

variable {σ α β : Type}

def answer (session : Session σ α) (s : σ) : Except Error α × σ :=
  StateT.run (ExceptT.run session) s

theorem answer_ofResult (r : Except Error α) (s : σ) : answer (ofResult r) s = (r, s) := rfl

theorem answer_ofMapping (r : Except MappingError α) (s : σ) :
    answer (ofMapping r) s = (r.mapError Error.mapping, s) := rfl

theorem answer_ofQuery (r : Except QueryError α) (s : σ) :
    answer (ofQuery r) s = (r.mapError Error.query, s) := rfl

theorem answer_ask (call : σ → Except StoreError α × σ) (s : σ) :
    answer (ask call) s = ((call s).1.mapError Error.store, (call s).2) := rfl

theorem ofQuery_ok_bind (a : α) (f : α → Session σ β) : ofQuery (.ok a) >>= f = f a := rfl

theorem ok_of_mapError {ε : Type} {f : ε → Error} {r : Except ε α} {a : α}
    (h : r.mapError f = .ok a) : r = .ok a := by
  cases r with
  | error e => cases h
  | ok b => exact congrArg Except.ok (Except.ok.inj h)

theorem answer_bind_ok {x : Session σ α} {s t : σ} {a : α} (h : answer x s = (.ok a, t))
    (f : α → Session σ β) : answer (x >>= f) s = answer (f a) t := by
  change StateT.run (ExceptT.run (x >>= f)) s = _
  change StateT.run (ExceptT.run x) s = _ at h
  rw [ExceptT.run_bind, StateT.run_bind, h]
  rfl

theorem answer_bind_error {x : Session σ α} {s t : σ} {e : Error} (h : answer x s = (.error e, t))
    (f : α → Session σ β) : answer (x >>= f) s = (.error e, t) := by
  change StateT.run (ExceptT.run (x >>= f)) s = _
  change StateT.run (ExceptT.run x) s = _ at h
  rw [ExceptT.run_bind, StateT.run_bind, h]
  rfl

theorem answer_ofMapping_bind_pure (r : Except MappingError α) (f : α → β) (s : σ) :
    answer (ofMapping r >>= fun a => pure (f a)) s = ((r.map f).mapError Error.mapping, s) := by
  cases r <;> rfl

theorem state_bind_pure (x : Session σ α) (f : α → β) (s : σ) :
    (answer (x >>= fun a => pure (f a)) s).2 = (answer x s).2 := by
  obtain ⟨result, t, h⟩ : ∃ result t, answer x s = (result, t) := ⟨_, _, rfl⟩
  cases result with
  | error e => rw [answer_bind_error h, h]
  | ok a =>
    rw [answer_bind_ok h, h]
    rfl

end RecordMapping.Session
