import Mathlib.Data.List.Nodup
import IocpChat.ChatServer.ChatServer

/-!
# One room for an id

`GetOrCreateRoom` gives `_lock` up between its lookup and that of `CreateRoom`,
so any number of threads may find the same room missing.  `CreateRoom` looks
again with the lock it inserts under: the first thread wins, and the others get
its room.  To the handlers a call is one step then, the one that returns.
-/

namespace IocpChat

open TransitionSystem

/-- What a `Room` is constructed with. -/
structure RoomObject where
  roomId : RoomId
  roomName : StdString
  deriving DecidableEq, Repr

/-- A `RoomRef` is the place of its object among all those ever made. -/
abbrev RoomRef := Nat

/-- The locked block that a thread comes to next. -/
inductive RoomManagerPc where
  | idle
  | getOrCreateRoom (roomId : RoomId) (defaultName : StdString)
  | createRoom (roomId : RoomId) (name : StdString)
  deriving DecidableEq, Repr

/-- `returned` and `inserted` record what the calls returned, and which of them
inserted a room. -/
structure RoomManager (Thread : Type) where
  objects : List RoomObject
  rooms : RoomId → Option RoomRef
  pcs : Thread → RoomManagerPc
  returned : List (RoomId × RoomRef)
  inserted : List (RoomObject × RoomRef)

inductive RoomManagerAction (Thread : Type) where
  | getOrCreateRoom (thread : Thread) (roomId : RoomId)
      (defaultName : StdString)
  | createRoom (thread : Thread) (roomId : RoomId) (name : StdString)
  | advance (thread : Thread)

namespace RoomManager

variable {Thread : Type}

section Steps

variable [DecidableEq Thread]

def goto (manager : RoomManager Thread) (thread : Thread)
    (pc : RoomManagerPc) : RoomManager Thread :=
  { manager with pcs := Function.update manager.pcs thread pc }

def returns (manager : RoomManager Thread) (thread : Thread)
    (roomId : RoomId) (room : RoomRef) : RoomManager Thread :=
  { manager with returned := manager.returned ++ [(roomId, room)] }.goto
    thread .idle

/-- The new room, made and inserted under the write lock. -/
def insert (manager : RoomManager Thread) (roomId : RoomId)
    (name : StdString) : RoomManager Thread :=
  let object : RoomObject :=
    { roomId := roomId
      roomName := name }
  let room := manager.objects.length
  { manager with
    objects := manager.objects ++ [object]
    rooms := Function.update manager.rooms roomId (some room)
    inserted := manager.inserted ++ [(object, room)] }

/-- `CreateRoom`. -/
def createRoom (manager : RoomManager Thread) (thread : Thread)
    (roomId : RoomId) (name : StdString) : RoomManager Thread :=
  match manager.rooms roomId with
  | some room => manager.returns thread roomId room
  | none =>
      (manager.insert roomId name).returns thread roomId
        manager.objects.length

/-- `GetOrCreateRoom` up to the call of `CreateRoom`. -/
def getOrCreateRoom (manager : RoomManager Thread) (thread : Thread)
    (roomId : RoomId) (defaultName : StdString) : RoomManager Thread :=
  match manager.rooms roomId with
  | some room => manager.returns thread roomId room
  | none => manager.goto thread (.createRoom roomId defaultName)

def step (manager : RoomManager Thread) :
    RoomManagerAction Thread → Option (RoomManager Thread)
  | .getOrCreateRoom thread roomId defaultName =>
      if manager.pcs thread = .idle then
        some (manager.goto thread (.getOrCreateRoom roomId defaultName))
      else none
  | .createRoom thread roomId name =>
      if manager.pcs thread = .idle then
        some (manager.goto thread (.createRoom roomId name))
      else none
  | .advance thread =>
      match manager.pcs thread with
      | .idle => none
      | .getOrCreateRoom roomId defaultName =>
          some (manager.getOrCreateRoom thread roomId defaultName)
      | .createRoom roomId name =>
          some (manager.createRoom thread roomId name)

end Steps

/-- `_rooms` has a room under its id only. -/
def Filed (manager : RoomManager Thread) : Prop :=
  ∀ roomId room, manager.rooms roomId = some room →
    ∃ object, manager.objects[room]? = some object ∧ object.roomId = roomId

/-- Nobody has called the manager yet; whatever rooms there are were made
before. -/
structure Ready (manager : RoomManager Thread) : Prop where
  filed : Filed manager
  pcs : ∀ thread, manager.pcs thread = .idle
  returned : manager.returned = []
  inserted : manager.inserted = []

/-- `RoomManager::Init`. -/
def init : RoomManager Thread :=
  { objects :=
      [{ roomId := 1, roomName := literal "Lobby Channel 1" },
        { roomId := 2, roomName := literal "Chat Room 2" },
        { roomId := 3, roomName := literal "Free Talk 3" }]
    rooms := fun roomId =>
      if roomId = 1 then some 0
      else if roomId = 2 then some 1
      else if roomId = 3 then some 2
      else none
    pcs := fun _ => .idle
    returned := []
    inserted := [] }

theorem init_ready : Ready (init : RoomManager Thread) where
  filed := by
    intro roomId room found
    simp only [init] at found ⊢
    repeat' split at found
    all_goals cases found
    all_goals exact ⟨_, rfl, by simp [*]⟩
  pcs := fun _ => rfl
  returned := rfl
  inserted := rfl

def machine (Thread : Type) [DecidableEq Thread] :
    Machine (RoomManager Thread) (RoomManagerAction Thread) where
  initial := Ready
  step := step

/-- The rooms that are there stay, under their ids and as they are. -/
def Grows (manager next : RoomManager Thread) : Prop :=
  ∀ roomId room, manager.rooms roomId = some room →
    next.rooms roomId = some room ∧
      next.objects[room]? = manager.objects[room]?

theorem Grows.refl (manager : RoomManager Thread) : Grows manager manager :=
  fun _ _ found => ⟨found, rfl⟩

theorem Grows.trans {manager middle next : RoomManager Thread}
    (first : Grows manager middle) (second : Grows middle next) :
    Grows manager next := by
  intro roomId room found
  obtain ⟨stays, same⟩ := first roomId room found
  obtain ⟨staysThen, sameThen⟩ := second roomId room stays
  exact ⟨staysThen, sameThen.trans same⟩

/-- What holds between the calls: a returned room is in `_rooms`, and so is an
inserted one, as it was made. -/
structure Kept (manager : RoomManager Thread) : Prop where
  filed : Filed manager
  found : ∀ roomId room, (roomId, room) ∈ manager.returned →
    manager.rooms roomId = some room
  named : ∀ object room, (object, room) ∈ manager.inserted →
    manager.rooms object.roomId = some room ∧
      manager.objects[room]? = some object
  once : (manager.inserted.map fun entry => entry.1.roomId).Nodup

theorem Ready.kept {manager : RoomManager Thread} (ready : Ready manager) :
    Kept manager where
  filed := ready.filed
  found := by
    rw [ready.returned]
    exact nofun
  named := by
    rw [ready.inserted]
    exact nofun
  once := by
    rw [ready.inserted]
    exact List.nodup_nil

/-- A new room leaves the others as they are. -/
theorem Filed.insert_grows {manager : RoomManager Thread}
    (filed : Filed manager) {roomId : RoomId}
    (missing : manager.rooms roomId = none) (name : StdString) :
    Grows manager (manager.insert roomId name) := by
  intro other room found
  have different : other ≠ roomId := by
    rintro rfl
    rw [missing] at found
    cases found
  obtain ⟨object, made, _⟩ := filed other room found
  constructor
  · exact (Function.update_of_ne different ..).trans found
  · obtain ⟨before, _⟩ := List.getElem?_eq_some_iff.mp made
    exact List.getElem?_append_left before

theorem Kept.insert {manager : RoomManager Thread} (kept : Kept manager)
    {roomId : RoomId} (missing : manager.rooms roomId = none)
    (name : StdString) : Kept (manager.insert roomId name) := by
  have grows := kept.filed.insert_grows missing name
  have new : (manager.insert roomId name).rooms roomId =
      some manager.objects.length := Function.update_self ..
  have made : (manager.insert roomId name).objects[manager.objects.length]? =
      some { roomId := roomId, roomName := name } :=
    List.getElem?_concat_length ..
  constructor
  · intro other room found
    by_cases own : other = roomId
    · subst own
      rw [new] at found
      cases found
      exact ⟨_, made, rfl⟩
    · have before : manager.rooms other = some room :=
        (Function.update_of_ne own ..).symm.trans found
      obtain ⟨object, there, same⟩ := kept.filed other room before
      exact ⟨object, (grows other room before).2.trans there, same⟩
  · intro other room member
    exact (grows other room (kept.found other room member)).1
  · intro object room member
    rcases List.mem_append.mp member with old | added
    · obtain ⟨found, there⟩ := kept.named object room old
      obtain ⟨stays, same⟩ := grows object.roomId room found
      exact ⟨stays, same.trans there⟩
    · cases List.mem_singleton.mp added
      exact ⟨new, made⟩
  · have once : roomId ∉ manager.inserted.map fun entry => entry.1.roomId := by
      intro member
      obtain ⟨entry, old, same⟩ := List.mem_map.mp member
      have found := (kept.named entry.1 entry.2 old).1
      rw [same, missing] at found
      cases found
    simp only [RoomManager.insert, List.map_append, List.map_cons,
      List.map_nil]
    rw [← List.concat_eq_append]
    exact kept.once.concat once

variable [DecidableEq Thread]

theorem Kept.returns {manager : RoomManager Thread} (kept : Kept manager)
    {roomId : RoomId} {room : RoomRef}
    (found : manager.rooms roomId = some room) (thread : Thread) :
    Kept (manager.returns thread roomId room) :=
  { kept with
    found := by
      intro other returned member
      rcases List.mem_append.mp member with old | added
      · exact kept.found other returned old
      · cases List.mem_singleton.mp added
        exact found }

/-- A block leaves everything in order and the rooms there are in place. -/
theorem Kept.createRoom {manager : RoomManager Thread} (kept : Kept manager)
    (thread : Thread) (roomId : RoomId) (name : StdString) :
    Kept (manager.createRoom thread roomId name) ∧
      Grows manager (manager.createRoom thread roomId name) := by
  unfold RoomManager.createRoom
  split
  · rename_i room found
    exact ⟨kept.returns found thread, .refl manager⟩
  · rename_i missing
    have new : (manager.insert roomId name).rooms roomId =
        some manager.objects.length := Function.update_self ..
    exact ⟨(kept.insert missing name).returns new thread,
      kept.filed.insert_grows missing name⟩

theorem Kept.getOrCreateRoom {manager : RoomManager Thread}
    (kept : Kept manager) (thread : Thread) (roomId : RoomId)
    (defaultName : StdString) :
    Kept (manager.getOrCreateRoom thread roomId defaultName) ∧
      Grows manager (manager.getOrCreateRoom thread roomId defaultName) := by
  unfold RoomManager.getOrCreateRoom
  split
  · rename_i room found
    exact ⟨kept.returns found thread, .refl manager⟩
  · exact ⟨{ kept with }, .refl manager⟩

theorem Kept.step {manager next : RoomManager Thread}
    {action : RoomManagerAction Thread} (kept : Kept manager)
    (stepped : manager.step action = some next) :
    Kept next ∧ Grows manager next := by
  cases action with
  | getOrCreateRoom thread roomId defaultName =>
      simp only [RoomManager.step] at stepped
      split at stepped <;> cases stepped
      exact ⟨{ kept with }, .refl manager⟩
  | createRoom thread roomId name =>
      simp only [RoomManager.step] at stepped
      split at stepped <;> cases stepped
      exact ⟨{ kept with }, .refl manager⟩
  | advance thread =>
      simp only [RoomManager.step] at stepped
      split at stepped <;> cases stepped
      · exact kept.getOrCreateRoom thread _ _
      · exact kept.createRoom thread _ _

theorem Kept.run_grows {manager next : RoomManager Thread}
    {actions : List (RoomManagerAction Thread)} (kept : Kept manager)
    (replayed : (machine Thread).run manager actions = some next) :
    Grows manager next := by
  have invariant : Kept next ∧ Grows manager next := by
    apply @Machine.run_invariant _ _ _
      (fun next => Kept next ∧ Grows manager next) _ _ _ _
      ⟨kept, .refl manager⟩ replayed
    intro state action next ⟨kept, grows⟩ stepped
    obtain ⟨keptThen, growsThen⟩ := kept.step stepped
    exact ⟨keptThen, grows.trans growsThen⟩
  exact invariant.2

/-- Calls with one id return one room, the rooms only become more, and a room
has the name that the call has given that inserted it, the only one to insert
this id. -/
structure OneRoomPerId (manager : RoomManager Thread) : Prop where
  same : ∀ roomId first second, (roomId, first) ∈ manager.returned →
    (roomId, second) ∈ manager.returned → first = second
  own : ∀ roomId room, (roomId, room) ∈ manager.returned →
    ∃ object, manager.objects[room]? = some object ∧ object.roomId = roomId
  grows : ∀ actions next,
    (machine Thread).run manager actions = some next → Grows manager next
  named : ∀ object room, (object, room) ∈ manager.inserted →
    manager.rooms object.roomId = some room ∧
      manager.objects[room]? = some object
  once : (manager.inserted.map fun entry => entry.1.roomId).Nodup

theorem reachable_oneRoomPerId {manager : RoomManager Thread}
    (reached : (machine Thread).Reachable manager) : OneRoomPerId manager := by
  have kept : Kept manager := by
    apply Machine.Reachable.invariant _ _ reached
    · exact fun _ ready => ready.kept
    · exact fun _ _ _ kept stepped => (kept.step stepped).1
  constructor
  · intro roomId first second firstReturned secondReturned
    have found := kept.found roomId first firstReturned
    rw [kept.found roomId second secondReturned] at found
    exact (Option.some.inj found).symm
  · intro roomId room returned
    exact kept.filed roomId room (kept.found roomId room returned)
  · exact fun actions next => kept.run_grows
  · exact kept.named
  · exact kept.once

/-- Both look for room 101 before either has inserted it; the second to call
inserts it. -/
def lookTogether : List (RoomManagerAction Bool) :=
  [.getOrCreateRoom true 101 (literal "Mine"),
    .getOrCreateRoom false 101 (literal "Yours"),
    .advance true, .advance false, .advance false, .advance true]

theorem lookTogether_oneRoomPerId :
    ∃ manager, (machine Bool).run init lookTogether = some manager ∧
      manager.returned = [(101, 3), (101, 3)] ∧
      manager.inserted =
        [({ roomId := 101, roomName := literal "Yours" }, 3)] ∧
      OneRoomPerId manager := by
  obtain ⟨manager, replayed⟩ : ∃ manager,
      (machine Bool).run init lookTogether = some manager :=
    Option.isSome_iff_exists.mp (by decide +kernel)
  have returned : manager.returned = [(101, 3), (101, 3)] := by
    apply Machine.view_of_run replayed
    decide +kernel
  have inserted : manager.inserted =
      [({ roomId := 101, roomName := literal "Yours" }, 3)] := by
    apply Machine.view_of_run replayed
    decide +kernel
  have starts : (machine Bool).Reachable init := .start init_ready
  exact ⟨manager, replayed, returned, inserted,
    reachable_oneRoomPerId (starts.of_run replayed)⟩

section Refinement

variable {Session : Type}

/-- The names of the rooms there are. -/
def names (manager : RoomManager Thread) (roomId : RoomId) :
    Option StdString :=
  (manager.rooms roomId).bind fun room =>
    manager.objects[room]?.map RoomObject.roomName

/-- The same of the server, whose rooms are known by their ids. -/
def serverNames (state : ChatServer Session) (roomId : RoomId) :
    Option StdString :=
  if roomId ∈ state.roomIds then some (state.rooms roomId).roomName else none

omit [DecidableEq Thread] in
theorem insert_names {manager : RoomManager Thread} (filed : Filed manager)
    {roomId : RoomId} (missing : manager.rooms roomId = none)
    (name : StdString) :
    (manager.insert roomId name).names =
      Function.update manager.names roomId (some name) := by
  funext other
  by_cases own : other = roomId
  · subst own
    simp [names, insert]
  · rw [Function.update_of_ne own]
    have rooms : (manager.insert roomId name).rooms other =
        manager.rooms other := Function.update_of_ne own ..
    unfold names
    rw [rooms]
    cases found : manager.rooms other with
    | none => rfl
    | some room =>
        rw [Option.bind_some, Option.bind_some]
        rw [(filed.insert_grows missing name other room found).2]

/-- A name stays; a new room gets the one of the call. -/
def nameOnce (names : RoomId → Option StdString) (roomId : RoomId)
    (name : StdString) : RoomId → Option StdString :=
  Function.update names roomId (some ((names roomId).getD name))

theorem nameOnce_of_some {names : RoomId → Option StdString}
    {roomId : RoomId} {known : StdString}
    (found : names roomId = some known) (name : StdString) :
    nameOnce names roomId name = names := by
  rw [nameOnce, found, Option.getD_some, ← found]
  exact Function.update_eq_self ..

theorem serverNames_getOrCreateRoom [DecidableEq Session]
    (state : ChatServer Session) (roomId : RoomId) (name : StdString) :
    serverNames (state.getOrCreateRoom roomId name) =
      nameOnce (serverNames state) roomId name := by
  unfold ChatServer.getOrCreateRoom
  split
  · rename_i known
    exact (nameOnce_of_some (if_pos known) name).symm
  · rename_i missing
    have unnamed : serverNames state roomId = none := if_neg missing
    rw [nameOnce, unnamed, Option.getD_none]
    funext other
    by_cases own : other = roomId
    · subst own
      simp [serverNames, ChatServer.setRoom]
    · simp [serverNames, ChatServer.setRoom, own]

omit [DecidableEq Thread] in
theorem Filed.names_isSome {manager : RoomManager Thread}
    (filed : Filed manager) {roomId : RoomId} {room : RoomRef}
    (found : manager.rooms roomId = some room) :
    ∃ known, manager.names roomId = some known := by
  obtain ⟨object, made, _⟩ := filed roomId room found
  refine ⟨object.roomName, ?_⟩
  rw [names, found, Option.bind_some, made]
  rfl

/-- A call is to the server's rooms what it is in one step; it has its effect in
the step in which it returns. -/
theorem advance_simulates [DecidableEq Session]
    {manager next : RoomManager Thread} (filed : Filed manager)
    {state : ChatServer Session} (same : manager.names = serverNames state)
    {thread : Thread} {roomId : RoomId} {name : StdString}
    (asks : manager.pcs thread = .getOrCreateRoom roomId name ∨
      manager.pcs thread = .createRoom roomId name)
    (stepped : manager.step (.advance thread) = some next) :
    next.pcs thread = .idle ∧
        next.names = serverNames (state.getOrCreateRoom roomId name) ∨
      next.pcs thread = .createRoom roomId name ∧
        next.names = serverNames state := by
  rw [serverNames_getOrCreateRoom, ← same]
  have returns (room : RoomRef) (found : manager.rooms roomId = some room) :
      (manager.returns thread roomId room).pcs thread = .idle ∧
        (manager.returns thread roomId room).names =
          nameOnce manager.names roomId name := by
    obtain ⟨known, named⟩ := filed.names_isSome found
    exact ⟨Function.update_self .., (nameOnce_of_some named name).symm⟩
  rcases asks with asks | asks
  · simp only [step, asks, getOrCreateRoom] at stepped
    split at stepped <;> cases stepped
    · exact Or.inl (returns _ (by assumption))
    · exact Or.inr ⟨Function.update_self .., rfl⟩
  · left
    simp only [step, asks, createRoom] at stepped
    split at stepped <;> cases stepped
    · exact returns _ (by assumption)
    · rename_i missing
      refine ⟨Function.update_self .., ?_⟩
      have unnamed : manager.names roomId = none := by
        rw [names, missing]
        rfl
      rw [nameOnce, unnamed, Option.getD_none]
      exact insert_names filed missing name

end Refinement

end RoomManager

end IocpChat
