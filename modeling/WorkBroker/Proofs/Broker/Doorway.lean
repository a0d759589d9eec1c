import Mathlib.Data.List.Nodup
import WorkBroker.Broker.Floor
/-!
The doorway of a broker: sockets come, and connections that were admitted end, in any order.  Every
admitted connection has a guard, which gives up what the connection has in three steps when its
handler ends, however that comes about: its entry in the registry, its mention in the counters, and
last its place.  Other connections may come and go between these steps.

`Kept` says how the books and the guards agree at any moment, also while guards are dropped.
-/

set_option autoImplicit false
set_option relaxedAutoImplicit false

namespace WorkBroker

/-- Whether an occasion has to do with requests, and not with connections that come and go. -/
def Occasion.isTraffic : Occasion → Bool
  | .connectionOpened | .connectionClosed | .connectionRejected => false
  | _ => true

namespace Floor

def strikeOut (f : Floor) (id : Nat) : Floor :=
  { f with guests := f.guests.filter (·.id ≠ id) }

def freePlace (f : Floor) : Floor := { f with limiter := f.limiter.release }

def registry (f : Floor) : List Nat := f.guests.map (·.id)

theorem arrive_of_room {f : Floor} (room : f.limiter.active < f.limiter.limit) :
    f.arrive = ((f.nextId, true),
      { f with
        limiter := { f.limiter with
          active := f.limiter.active + 1, admitted := f.limiter.admitted + 1 }
        metrics := f.metrics.note .connectionOpened
        guests := f.guests ++ [⟨f.nextId, none, none⟩]
        nextId := f.nextId + 1 }) := by
  have enter : f.limiter.enter = (.ok (), { f.limiter with
      active := f.limiter.active + 1, admitted := f.limiter.admitted + 1 }) :=
    if_pos (decide_eq_true room)
  simp only [arrive, enter]

theorem arrive_of_full {f : Floor} (full : ¬f.limiter.active < f.limiter.limit) :
    f.arrive = ((f.nextId, false),
      { f with
        limiter := { f.limiter with rejected := f.limiter.rejected + 1 }
        metrics := f.metrics.note .connectionRejected
        nextId := f.nextId + 1 }) := by
  have enter : f.limiter.enter = (.error (.admissionRejected f.limiter.limit),
      { f.limiter with rejected := f.limiter.rejected + 1 }) :=
    if_neg (by simpa [Limiter.canAdmit] using full)
  simp only [arrive, enter]

private theorem registry_introduce (f : Floor) (id : Nat) (role : Role) (clientId : String) :
    (f.introduce id role clientId).registry = f.registry := by
  simp only [registry, introduce, List.map_map]
  refine List.map_congr_left fun g _ => ?_
  dsimp only [Function.comp_apply]
  split_ifs <;> rfl

private theorem registry_strikeOut (f : Floor) (id : Nat) :
    (f.strikeOut id).registry = f.registry.filter (· ≠ id) := by
  rw [registry, strikeOut, registry, List.filter_map]
  rfl

end Floor

/-- The doorway of a broker.  The guards of admitted connections are told apart by how much they
have given up already; connections that were turned away have a task that tells them so. -/
structure Doorway where
  floor : Floor
  /-- Guards that were not dropped. -/
  staying : List Nat
  /-- Guards whose entry in the registry is gone. -/
  struckOut : List Nat
  /-- Guards whose end has been counted as well, and that hold nothing but a place. -/
  counted : List Nat
  /-- Connections for which such a task was started. -/
  refused : List Nat

namespace Doorway

inductive Event
  /-- A socket has been accepted. -/
  | arrive
  | strikeOut (id : Nat)
  | countOut (id : Nat)
  | freePlace (id : Nat)
  /-- A handler puts down who its client is. -/
  | introduce (id : Nat) (role : Role) (clientId : String)
  /-- A handler counts something. -/
  | note (occasion : Occasion)

def ofLimit (n : Nat) : Doorway := ⟨.ofLimit n, [], [], [], []⟩

/-- The guards that are alive. -/
def guards (d : Doorway) : List Nat := d.staying ++ d.struckOut ++ d.counted

def active (d : Doorway) : Nat := d.floor.limiter.active

def step (d : Doorway) : Event → Doorway
  | .arrive =>
    match d.floor.arrive with
    | ((id, true), floor) => { d with floor, staying := d.staying ++ [id] }
    | ((id, false), floor) => { d with floor, refused := d.refused ++ [id] }
  | .strikeOut id =>
    if id ∈ d.staying then
      { d with
        floor := d.floor.strikeOut id
        staying := d.staying.erase id
        struckOut := d.struckOut ++ [id] }
    else d
  | .countOut id =>
    if id ∈ d.struckOut then
      { d with
        floor := d.floor.note .connectionClosed
        struckOut := d.struckOut.erase id
        counted := d.counted ++ [id] }
    else d
  | .freePlace id =>
    if id ∈ d.counted then
      { d with floor := d.floor.freePlace, counted := d.counted.erase id }
    else d
  | .introduce id role clientId => { d with floor := d.floor.introduce id role clientId }
  | .note occasion => if occasion.isTraffic then { d with floor := d.floor.note occasion } else d

def run (d : Doorway) (events : List Event) : Doorway := events.foldl step d

/-- The books and the guards agree. -/
structure Kept (n : Nat) (d : Doorway) : Prop where
  limit : d.floor.limiter.limit = min n maxPermits
  nodup : d.staying.Nodup
  known : ∀ id ∈ d.staying, id < d.floor.nextId
  registry : d.floor.registry = d.staying
  active : d.active = d.guards.length
  within : d.active ≤ d.floor.limiter.limit
  /-- A connection counts as open until its guard has counted its end. -/
  counts : d.floor.metrics.opened =
    d.floor.metrics.closed + (d.staying.length + d.struckOut.length)
  admitted : d.floor.metrics.opened = d.floor.limiter.admitted
  rejected : d.floor.metrics.rejected = d.floor.limiter.rejected
  /-- Every socket was admitted or turned away. -/
  accepted : d.floor.metrics.opened + d.floor.metrics.rejected + 1 = d.floor.nextId

variable {n : Nat} {d : Doorway}

theorem length_guards (d : Doorway) :
    d.guards.length = d.staying.length + d.struckOut.length + d.counted.length := by
  rw [guards, List.length_append, List.length_append]

private theorem kept_ofLimit (n : Nat) : Kept n (ofLimit n) :=
  ⟨rfl, List.nodup_nil, fun _ mem => absurd mem List.not_mem_nil, rfl, rfl, Nat.zero_le _, rfl, rfl,
    rfl, rfl⟩

/-- Whether the rules of admission hold when a socket is accepted: it is admitted if there is room,
and otherwise a task is started that turns it away, and nothing else happens. -/
structure Admits (d d' : Doorway) : Prop where
  room : d.active < d.floor.limiter.limit →
    d'.staying = d.staying ++ [d.floor.nextId] ∧
      d'.floor.registry = d.floor.registry ++ [d.floor.nextId] ∧
      d'.active = d.active + 1 ∧
      d'.refused = d.refused ∧
      d'.floor.metrics = { d.floor.metrics with opened := d.floor.metrics.opened + 1 } ∧
      d'.floor.limiter.admitted = d.floor.limiter.admitted + 1 ∧
      d'.floor.limiter.rejected = d.floor.limiter.rejected
  full : ¬d.active < d.floor.limiter.limit →
    d'.staying = d.staying ∧ d'.floor.guests = d.floor.guests ∧ d'.active = d.active ∧
      d'.refused = d.refused ++ [d.floor.nextId] ∧
      d'.floor.metrics = { d.floor.metrics with rejected := d.floor.metrics.rejected + 1 } ∧
      d'.floor.limiter.admitted = d.floor.limiter.admitted ∧
      d'.floor.limiter.rejected = d.floor.limiter.rejected + 1
  others : d'.struckOut = d.struckOut ∧ d'.counted = d.counted ∧
    d'.floor.limiter.limit = d.floor.limiter.limit ∧ d'.floor.nextId = d.floor.nextId + 1

theorem admits_arrive (d : Doorway) : Admits d (d.step .arrive) := by
  by_cases room : d.active < d.floor.limiter.limit
  · simp only [step, Floor.arrive_of_room room]
    exact ⟨fun _ => ⟨rfl, List.map_append, rfl, rfl, rfl, rfl, rfl⟩, fun full => absurd room full,
      rfl, rfl, rfl, rfl⟩
  · simp only [step, Floor.arrive_of_full room]
    exact ⟨fun free => absurd free room, fun _ => ⟨rfl, rfl, rfl, rfl, rfl, rfl, rfl⟩, rfl, rfl,
      rfl, rfl⟩

private theorem Kept.arrive (k : Kept n d) : Kept n (d.step .arrive) := by
  obtain ⟨room, full, struckOut, counted, limit, nextId⟩ := admits_arrive d
  have active := k.active
  rw [length_guards] at active
  by_cases free : d.active < d.floor.limiter.limit
  · obtain ⟨staying, registry, grown, -, metrics, admitted, rejected⟩ := room free
    have fresh : d.floor.nextId ∉ d.staying := fun mem => Nat.lt_irrefl _ (k.known _ mem)
    have length : (d.step .arrive).staying.length = d.staying.length + 1 := by
      rw [staying, List.length_append, List.length_singleton]
    refine ⟨limit.trans k.limit, ?_, fun id mem => ?_, ?_, ?_, ?_, ?_, ?_, ?_, ?_⟩
    · rw [staying]
      exact List.nodup_append.mpr ⟨k.nodup, List.nodup_singleton _, fun a ha b hb same =>
        fresh (List.mem_singleton.mp hb ▸ same ▸ ha)⟩
    · rw [staying, List.mem_append, List.mem_singleton] at mem
      rw [nextId]
      rcases mem with old | rfl
      · exact Nat.lt_succ_of_lt (k.known id old)
      · exact Nat.lt_succ_self _
    · rw [registry, staying, k.registry]
    · rw [length_guards, length, struckOut, counted, grown]
      omega
    · rw [grown, limit]
      exact free
    · rw [metrics, length, struckOut]
      have := k.counts
      simp only
      omega
    · rw [metrics, admitted]
      exact congrArg (· + 1) k.admitted
    · rw [metrics, rejected]
      exact k.rejected
    · rw [metrics, nextId]
      have := k.accepted
      simp only
      omega
  · obtain ⟨staying, guests, same, -, metrics, admitted, rejected⟩ := full free
    refine ⟨limit.trans k.limit, ?_, fun id mem => ?_, ?_, ?_, ?_, ?_, ?_, ?_, ?_⟩
    · rw [staying]
      exact k.nodup
    · rw [nextId]
      exact Nat.lt_succ_of_lt (k.known id (staying ▸ mem))
    · rw [Floor.registry, guests, staying]
      exact k.registry
    · rw [length_guards, staying, struckOut, counted, same]
      exact active
    · rw [same, limit]
      exact k.within
    · rw [metrics, staying, struckOut]
      exact k.counts
    · rw [metrics, admitted]
      exact k.admitted
    · rw [metrics, rejected]
      exact congrArg (· + 1) k.rejected
    · rw [metrics, nextId]
      exact congrArg (· + 1) k.accepted

private theorem length_moved {ids : List Nat} (others : List Nat) {id : Nat} (mem : id ∈ ids) :
    (ids.erase id).length + (others ++ [id]).length = ids.length + others.length := by
  have pos := List.length_pos_of_mem mem
  rw [List.length_erase_of_mem mem, List.length_append, List.length_singleton]
  omega

private theorem Kept.strikeOut (k : Kept n d) (id : Nat) : Kept n (d.step (.strikeOut id)) := by
  by_cases mem : id ∈ d.staying
  · have moved := length_moved d.struckOut mem
    have active := k.active
    have counts := k.counts
    rw [length_guards] at active
    rw [step, if_pos mem]
    refine ⟨k.limit, k.nodup.erase id,
      fun other still => k.known other (List.mem_of_mem_erase still),
      ?_, ?_, k.within, ?_, k.admitted, k.rejected, k.accepted⟩
    · rw [Floor.registry_strikeOut, k.registry, k.nodup.erase_eq_filter]
      exact List.filter_congr fun other _ => by by_cases e : other = id <;> simp [e]
    · rw [length_guards]
      show d.active = _
      simp only
      omega
    · show d.floor.metrics.opened = d.floor.metrics.closed + _
      simp only
      omega
  · rw [step, if_neg mem]
    exact k

private theorem Kept.countOut (k : Kept n d) (id : Nat) : Kept n (d.step (.countOut id)) := by
  by_cases mem : id ∈ d.struckOut
  · have moved := length_moved d.counted mem
    have less := List.length_erase_of_mem mem
    have pos := List.length_pos_of_mem mem
    have active := k.active
    have counts := k.counts
    rw [length_guards] at active
    rw [step, if_pos mem]
    refine ⟨k.limit, k.nodup, k.known, k.registry, ?_, k.within, ?_, k.admitted, k.rejected,
      k.accepted⟩
    · rw [length_guards]
      show d.active = _
      simp only
      omega
    · show d.floor.metrics.opened = d.floor.metrics.closed + 1 + _
      simp only
      omega
  · rw [step, if_neg mem]
    exact k

private theorem Kept.freePlace (k : Kept n d) (id : Nat) : Kept n (d.step (.freePlace id)) := by
  by_cases mem : id ∈ d.counted
  · have less := List.length_erase_of_mem mem
    have pos := List.length_pos_of_mem mem
    have active := k.active
    rw [length_guards] at active
    rw [step, if_pos mem]
    refine ⟨k.limit, k.nodup, k.known, k.registry, ?_, ?_, k.counts, k.admitted, k.rejected,
      k.accepted⟩
    · rw [length_guards]
      show d.active - 1 = _
      simp only
      omega
    · exact Nat.le_trans (Nat.sub_le _ _) k.within
  · rw [step, if_neg mem]
    exact k

private theorem Kept.introduce (k : Kept n d) (id : Nat) (role : Role) (clientId : String) :
    Kept n (d.step (.introduce id role clientId)) :=
  ⟨k.limit, k.nodup, k.known, (d.floor.registry_introduce id role clientId).trans k.registry,
    k.active, k.within, k.counts, k.admitted, k.rejected, k.accepted⟩

private theorem Kept.note (k : Kept n d) (occasion : Occasion) :
    Kept n (d.step (.note occasion)) := by
  have others := k
  obtain ⟨limit, nodup, known, registry, active, within, counts, admitted, rejected, accepted⟩ := k
  cases occasion with
  | connectionOpened | connectionClosed | connectionRejected => exact others
  | handshakeFailed | requestReceived | errorSent | protocolViolation =>
    exact ⟨limit, nodup, known, registry, active, within, counts, admitted, rejected, accepted⟩

private theorem Kept.step (k : Kept n d) (e : Event) : Kept n (d.step e) := by
  cases e with
  | arrive => exact k.arrive
  | strikeOut id => exact k.strikeOut id
  | countOut id => exact k.countOut id
  | freePlace id => exact k.freePlace id
  | introduce id role clientId => exact k.introduce id role clientId
  | note occasion => exact k.note occasion

private theorem Kept.run (k : Kept n d) (events : List Event) : Kept n (d.run events) := by
  induction events generalizing d with
  | nil => exact k
  | cons e events ih => exact ih (k.step e)

theorem run_append (d : Doorway) (events more : List Event) :
    d.run (events ++ more) = (d.run events).run more := List.foldl_append

/-- The books and the guards agree whatever has happened. -/
theorem kept_after (n : Nat) (events : List Event) : Kept n ((ofLimit n).run events) :=
  (kept_ofLimit n).run events

theorem Kept.settled (k : Kept n d) (struckOut : d.struckOut = []) (counted : d.counted = []) :
    d.floor.registry = d.guards ∧
      d.floor.metrics.opened = d.floor.metrics.closed + d.guards.length := by
  have guards : d.guards = d.staying := by
    rw [Doorway.guards, struckOut, counted, List.append_nil, List.append_nil]
  have counts := k.counts
  rw [struckOut, List.length_nil, Nat.add_zero] at counts
  rw [guards]
  exact ⟨k.registry, counts⟩

end Doorway
end WorkBroker
