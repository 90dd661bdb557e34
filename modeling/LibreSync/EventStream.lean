import LibreSync.Lib.Threads
import LibreSync.Lib.Transition

/-!
The event stream with its wake pipe: any number of emitters and one consumer,
one atomic operation at a time.
-/

namespace LibreSync

/-- Where an emitter stands in `emit`: between two calls, before the swap, before the write. -/
inductive EmitPhase where
  | idle
  | queued
  | owing
deriving DecidableEq

/-- Where the consumer stands in `try_recv`; `consume_signal` knows whether an event was taken. -/
inductive TakePhase (M : Type) where
  | idle
  | polling
  | taken (event : M)
  | clearing (taken : Option M)
  | reading (taken : Option M)
  | loading (event : M)
  | raising (event : M)
  | writing (event : M)
deriving DecidableEq

structure EventStream (M : Type) where
  queue : List M
  signaled : Bool
  pipe : Nat
  emitters : List EmitPhase
  consumer : TakePhase M
  returned : List (Option M)
deriving DecidableEq

inductive StreamEvent (M : Type) where
  | send (emitter : Nat) (event : M)
  | swap (emitter : Nat)
  | write (emitter : Nat)
  | call
  | take

namespace EventStream

variable {M : Type}

def start (count : Nat) : EventStream M where
  queue := []
  signaled := false
  pipe := 0
  emitters := List.replicate count .idle
  consumer := .idle
  returned := []

def send (stream : EventStream M) (emitter : Nat) (event : M) : Option (EventStream M) :=
  if stream.emitters[emitter]? = some .idle then
    some { stream with
      queue := stream.queue ++ [event]
      emitters := stream.emitters.set emitter .queued }
  else none

def swap (stream : EventStream M) (emitter : Nat) : Option (EventStream M) :=
  if stream.emitters[emitter]? = some .queued then
    some { stream with
      signaled := true
      emitters := stream.emitters.set emitter (if stream.signaled then .idle else .owing) }
  else none

def write (stream : EventStream M) (emitter : Nat) : Option (EventStream M) :=
  if stream.emitters[emitter]? = some .owing then
    some { stream with
      pipe := stream.pipe + 1
      emitters := stream.emitters.set emitter .idle }
  else none

def finish (stream : EventStream M) (result : Option M) : EventStream M :=
  { stream with
    consumer := .idle
    returned := result :: stream.returned }

/-- The next operation of `try_recv`; none between two calls, or while the read blocks. -/
def take (stream : EventStream M) : Option (EventStream M) :=
  match stream.consumer with
  | .idle => none
  | .polling =>
      match stream.queue with
      | event :: rest => some { stream with
          queue := rest
          consumer := .taken event }
      | [] => some { stream with consumer := .clearing none }
  | .taken event =>
      if stream.queue.isEmpty then some { stream with consumer := .clearing (some event) }
      else some { stream with consumer := .loading event }
  | .clearing taken =>
      if stream.signaled then some { stream with
        signaled := false
        consumer := .reading taken }
      else some (stream.finish taken)
  | .reading taken =>
      match stream.pipe, taken with
      | 0, _ => none
      | pipe + 1, none => some { stream with
          pipe := pipe
          consumer := .polling }
      | pipe + 1, some event => some ({ stream with pipe := pipe }.finish (some event))
  | .loading event =>
      if stream.signaled then some (stream.finish (some event))
      else some { stream with consumer := .raising event }
  | .raising event =>
      if stream.signaled then some (stream.finish (some event))
      else some { stream with
        signaled := true
        consumer := .writing event }
  | .writing event => some ({ stream with pipe := stream.pipe + 1 }.finish (some event))

def step (stream : EventStream M) : StreamEvent M → Option (EventStream M)
  | .send emitter event => stream.send emitter event
  | .swap emitter => stream.swap emitter
  | .write emitter => stream.write emitter
  | .call =>
      match stream.consumer with
      | .idle => some { stream with consumer := .polling }
      | _ => none
  | .take => stream.take

def Quiet (stream : EventStream M) : Prop :=
  (∀ phase ∈ stream.emitters, phase = .idle) ∧ stream.consumer = .idle

structure Wakeful (stream : EventStream M) : Prop where
  woken : stream.Quiet → stream.queue ≠ [] → stream.pipe = 1
  single : stream.Quiet → stream.pipe ≤ 1
  fed : ∀ taken, stream.consumer = .reading taken → stream.take.isSome ∨
    ∃ emitter after, stream.write emitter = some after ∧ after.take.isSome

/--
After `is_empty` and before the swap that clears the flag, the consumer no
longer looks at the queue: an emitter that raises the flag there is not heard,
unless another one that has queued its event has yet to raise it.
-/
def Heard (stream : EventStream M) : StreamEvent M → Prop
  | .swap emitter => ∀ event, stream.consumer = .clearing (some event) → stream.queue = [] ∨
      ∃ other, other ≠ emitter ∧ stream.emitters[other]? = some .queued
  | _ => True

def reads (stream : EventStream M) : Nat :=
  match stream.consumer with
  | .reading _ => 1
  | _ => 0

def owes (stream : EventStream M) : Nat :=
  match stream.consumer with
  | .writing _ => 1
  | _ => 0

/-- The bytes in the pipe and those still to be written match the flag and the byte to be read. -/
def Balanced (stream : EventStream M) : Prop :=
  stream.pipe + stream.emitters.count .owing + stream.owes =
    stream.signaled.toNat + stream.reads

/-- Queued events are announced: by the flag, by an emitter, or by what the consumer does next. -/
def Announced (stream : EventStream M) : Prop :=
  stream.queue ≠ [] → match stream.consumer with
    | .idle | .clearing none | .reading (some _) | .writing _ =>
        stream.signaled = true ∨ .queued ∈ stream.emitters
    | .clearing (some _) => .queued ∈ stream.emitters
    | .polling | .taken _ | .reading none | .loading _ | .raising _ => True

abbrev Reached (count : Nat) : EventStream M → Prop :=
  Transition.Reaches step Heard (start count)

variable {stream after : EventStream M} {emitter : Nat}

theorem Balanced.send (balanced : stream.Balanced) {event : M}
    (stepped : stream.send emitter event = some after) : after.Balanced := by
  simp only [EventStream.send] at stepped
  split at stepped
  · rename_i found
    obtain rfl := Option.some.inj stepped
    have counted := Threads.count_set found .owing .queued
    simp only [Balanced, owes, reads] at balanced ⊢
    simp at counted
    omega
  · simp at stepped

theorem Balanced.swap (balanced : stream.Balanced) (stepped : stream.swap emitter = some after) :
    after.Balanced := by
  simp only [EventStream.swap] at stepped
  split at stepped
  · rename_i found
    obtain rfl := Option.some.inj stepped
    have counted := Threads.count_set found .owing (if stream.signaled then .idle else .owing)
    simp only [Balanced, owes, reads] at balanced ⊢
    cases flag : stream.signaled
    · simp [flag] at counted balanced ⊢
      omega
    · simp [flag] at counted balanced ⊢
      omega
  · simp at stepped

theorem Balanced.write (balanced : stream.Balanced) (stepped : stream.write emitter = some after) :
    after.Balanced := by
  simp only [EventStream.write] at stepped
  split at stepped
  · rename_i found
    obtain rfl := Option.some.inj stepped
    have counted := Threads.count_set found .owing .idle
    simp only [Balanced, owes, reads] at balanced ⊢
    simp at counted
    omega
  · simp at stepped

theorem Balanced.take (balanced : stream.Balanced) (stepped : stream.take = some after) :
    after.Balanced := by
  simp only [Balanced, owes, reads] at balanced
  simp only [EventStream.take] at stepped
  split at stepped
  case h_1 => simp at stepped
  case h_2 phase =>
    rw [phase] at balanced
    split at stepped <;> obtain rfl := Option.some.inj stepped <;> exact balanced
  case h_3 event phase =>
    rw [phase] at balanced
    split at stepped <;> obtain rfl := Option.some.inj stepped <;> exact balanced
  case h_4 taken phase =>
    rw [phase] at balanced
    split at stepped
    · rename_i flag
      obtain rfl := Option.some.inj stepped
      simp [Balanced, owes, reads, flag] at balanced ⊢
      omega
    · obtain rfl := Option.some.inj stepped
      exact balanced
  case h_5 taken phase =>
    rw [phase] at balanced
    split at stepped
    · simp at stepped
    · rename_i pipe held
      obtain rfl := Option.some.inj stepped
      simp only [Balanced, owes, reads, held] at balanced ⊢
      omega
    · rename_i pipe event held
      obtain rfl := Option.some.inj stepped
      simp only [Balanced, owes, reads, held, finish] at balanced ⊢
      omega
  case h_6 event phase =>
    rw [phase] at balanced
    split at stepped <;> obtain rfl := Option.some.inj stepped <;> exact balanced
  case h_7 event phase =>
    rw [phase] at balanced
    split at stepped
    · obtain rfl := Option.some.inj stepped
      exact balanced
    · rename_i flag
      obtain rfl := Option.some.inj stepped
      simp [Balanced, owes, reads, flag] at balanced ⊢
      omega
  case h_8 event phase =>
    rw [phase] at balanced
    obtain rfl := Option.some.inj stepped
    simp only [Balanced, owes, reads, finish] at balanced ⊢
    omega

theorem Balanced.step (balanced : stream.Balanced) {event : StreamEvent M}
    (stepped : stream.step event = some after) : after.Balanced := by
  cases event with
  | send emitter event => exact balanced.send stepped
  | swap emitter => exact balanced.swap stepped
  | write emitter => exact balanced.write stepped
  | call =>
      simp only [EventStream.step] at stepped
      split at stepped
      · rename_i phase
        obtain rfl := Option.some.inj stepped
        simpa only [Balanced, owes, reads, phase] using balanced
      · simp at stepped
  | take => exact balanced.take stepped

theorem announced_send {event : M}
    (stepped : stream.send emitter event = some after) : after.Announced := by
  simp only [EventStream.send] at stepped
  split at stepped
  · rename_i found
    obtain rfl := Option.some.inj stepped
    have queued : .queued ∈ stream.emitters.set emitter .queued := by
      obtain ⟨inside, _⟩ := List.getElem?_eq_some_iff.mp found
      exact List.mem_set inside _
    intro _
    dsimp only
    split
    · exact Or.inr queued
    · exact Or.inr queued
    · exact Or.inr queued
    · exact Or.inr queued
    · exact queued
    all_goals trivial
  · simp at stepped

theorem announced_swap (heard : stream.Heard (.swap emitter))
    (stepped : stream.swap emitter = some after) : after.Announced := by
  simp only [EventStream.swap] at stepped
  split at stepped
  · rename_i found
    obtain rfl := Option.some.inj stepped
    intro waiting
    dsimp only at waiting ⊢
    split
    · exact Or.inl rfl
    · exact Or.inl rfl
    · exact Or.inl rfl
    · exact Or.inl rfl
    · rename_i event phase
      obtain ⟨other, distinct, queued⟩ := (heard event phase).resolve_left waiting
      exact List.mem_iff_getElem?.mpr ⟨other, by rw [List.getElem?_set_ne distinct.symm, queued]⟩
    all_goals trivial
  · simp at stepped

theorem Announced.write (announced : stream.Announced) (stepped : stream.write emitter = some after) :
    after.Announced := by
  simp only [EventStream.write] at stepped
  split at stepped
  · rename_i found
    obtain rfl := Option.some.inj stepped
    have kept : .queued ∈ stream.emitters → .queued ∈ stream.emitters.set emitter .idle :=
      Threads.mem_set found (by simp) .idle
    intro waiting
    have told := announced waiting
    dsimp only at waiting ⊢
    split <;> rename_i phase <;> rw [phase] at told
    · exact told.imp_right kept
    · exact told.imp_right kept
    · exact told.imp_right kept
    · exact told.imp_right kept
    · exact kept told
    all_goals trivial
  · simp at stepped

theorem Announced.take (announced : stream.Announced) (stepped : stream.take = some after) :
    after.Announced := by
  intro waiting
  simp only [EventStream.take] at stepped
  split at stepped
  case h_1 => simp at stepped
  case h_2 phase =>
    split at stepped
    · obtain rfl := Option.some.inj stepped
      trivial
    · rename_i empty
      obtain rfl := Option.some.inj stepped
      exact absurd empty waiting
  case h_3 event phase =>
    split at stepped
    · rename_i empty
      obtain rfl := Option.some.inj stepped
      exact absurd (List.isEmpty_iff.mp empty) waiting
    · obtain rfl := Option.some.inj stepped
      trivial
  case h_4 taken phase =>
    split at stepped
    · obtain rfl := Option.some.inj stepped
      have told := announced waiting
      rw [phase] at told
      cases taken with
      | none => trivial
      | some event => exact Or.inr told
    · rename_i flag
      obtain rfl := Option.some.inj stepped
      have told := announced waiting
      rw [phase] at told
      cases taken with
      | none => exact told
      | some event => exact Or.inr told
  case h_5 taken phase =>
    split at stepped
    · simp at stepped
    · obtain rfl := Option.some.inj stepped
      trivial
    · rename_i pipe event held
      obtain rfl := Option.some.inj stepped
      have told := announced waiting
      rw [phase] at told
      exact told
  case h_6 event phase =>
    split at stepped
    · rename_i flag
      obtain rfl := Option.some.inj stepped
      exact Or.inl flag
    · obtain rfl := Option.some.inj stepped
      trivial
  case h_7 event phase =>
    split at stepped
    · rename_i flag
      obtain rfl := Option.some.inj stepped
      exact Or.inl flag
    · obtain rfl := Option.some.inj stepped
      exact Or.inl rfl
  case h_8 event phase =>
    obtain rfl := Option.some.inj stepped
    have told := announced waiting
    rw [phase] at told
    exact told

theorem Announced.step (announced : stream.Announced) {event : StreamEvent M}
    (heard : stream.Heard event) (stepped : stream.step event = some after) : after.Announced := by
  cases event with
  | send emitter event => exact announced_send stepped
  | swap emitter => exact announced_swap heard stepped
  | write emitter => exact announced.write stepped
  | call =>
      simp only [EventStream.step] at stepped
      split at stepped
      · obtain rfl := Option.some.inj stepped
        exact fun _ => trivial
      · simp at stepped
  | take => exact announced.take stepped

theorem Balanced.quiet (balanced : stream.Balanced) (quiet : stream.Quiet) :
    stream.pipe = stream.signaled.toNat := by
  have none : stream.emitters.count .owing = 0 := by
    rw [List.count_eq_zero]
    intro member
    exact absurd (quiet.1 _ member) (by decide)
  simp only [Balanced, owes, reads, quiet.2, none] at balanced
  exact balanced

theorem take_reading {taken : Option M} (reading : stream.consumer = .reading taken)
    (held : 0 < stream.pipe) : stream.take.isSome := by
  obtain ⟨pipe, written⟩ := Nat.exists_eq_succ_of_ne_zero held.ne'
  simp only [EventStream.take, reading, written]
  cases taken <;> rfl

theorem Balanced.fed (balanced : stream.Balanced) {taken : Option M}
    (reading : stream.consumer = .reading taken) : stream.take.isSome ∨
      ∃ emitter after, stream.write emitter = some after ∧ after.take.isSome := by
  by_cases held : 0 < stream.pipe
  · exact Or.inl (take_reading reading held)
  · have owing : .owing ∈ stream.emitters := by
      simp only [Balanced, owes, reads, reading] at balanced
      rw [← List.count_pos_iff]
      omega
    obtain ⟨emitter, found⟩ := List.mem_iff_getElem?.mp owing
    refine Or.inr ⟨emitter, _, by rw [EventStream.write, if_pos found], ?_⟩
    exact take_reading reading (Nat.succ_pos _)

theorem stays_wakeful {count : Nat} (reached : Reached count stream) : stream.Wakeful := by
  have balanced : stream.Balanced :=
    reached.invariant (by simp [Balanced, start, owes, reads, List.count_replicate])
      fun _ _ _ holds _ stepped => holds.step stepped
  have announced : stream.Announced :=
    reached.invariant (fun waiting => absurd rfl waiting)
      fun _ _ _ holds heard stepped => holds.step heard stepped
  refine ⟨?_, ?_, fun taken reading => balanced.fed reading⟩
  · intro quiet waiting
    have told := announced waiting
    rw [quiet.2] at told
    rcases told with flag | queued
    · rw [balanced.quiet quiet, flag]
      rfl
    · exact absurd (quiet.1 _ queued) (by decide)
  · intro quiet
    rw [balanced.quiet quiet]
    exact Bool.toNat_le stream.signaled

/-- An emitter queues one event, then a second while the consumer drops the byte of the first. -/
def missedEvents : List (StreamEvent Nat) := [.send 0 1, .swap 0, .write 0, .call, .take, .take,
  .send 0 2, .swap 0, .take, .take]

theorem byte_missed : ∃ stream : EventStream Nat,
    Transition.Reaches step (fun _ _ => True) (start 1) stream ∧ ¬stream.Wakeful := by
  have ran : Transition.run step (start 1) missedEvents = some {
      queue := [2]
      signaled := false
      pipe := 0
      emitters := [.idle]
      consumer := .idle
      returned := [some 1] } := by decide
  refine ⟨_, Transition.reaches_of_run missedEvents ran, fun wakeful => ?_⟩
  exact absurd (wakeful.woken ⟨by simp, rfl⟩ (by simp)) (by decide)

def sharedEvents : List (StreamEvent Nat) := [.send 0 1, .send 1 2, .swap 1, .swap 0, .write 1,
  .call, .take, .take, .take]

def sharedStream : EventStream Nat where
  queue := [2]
  signaled := true
  pipe := 1
  emitters := [.idle, .idle]
  consumer := .idle
  returned := [some 1]

theorem stays_wakeful_shared : sharedStream.Quiet ∧ sharedStream.Wakeful := by
  have ran : Transition.run step (start 2) sharedEvents = some sharedStream := by decide
  have idle : ∀ stream : EventStream Nat, stream.consumer = .idle → ∀ emitter,
      stream.Heard (.swap emitter) := by
    intro stream idle emitter event clearing
    simp [idle] at clearing
  refine ⟨⟨by decide, rfl⟩, stays_wakeful (Transition.reaches_along ran ?_)⟩
  rintro _ ⟨⟩
  refine ⟨trivial, ?_⟩
  rintro _ ⟨⟩
  refine ⟨trivial, ?_⟩
  rintro _ ⟨⟩
  refine ⟨idle _ rfl 1, ?_⟩
  rintro _ ⟨⟩
  refine ⟨idle _ rfl 0, fun _ _ => ⟨trivial, fun _ _ => ⟨trivial, fun _ _ => ⟨trivial,
    fun _ _ => ⟨trivial, fun _ _ => ⟨trivial, trivial⟩⟩⟩⟩⟩⟩

end EventStream

end LibreSync
