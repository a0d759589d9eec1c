import WorkBroker.Proofs.Client.Dialogue
import WorkBroker.Proofs.Wire.Writable
/-!
Cleaning up failed messages from a client.  Erasing a list piece by piece comes to erasing it at
once, and a purge goes on page by page until no failed message is left, as long as nobody else
erases and nothing fails meanwhile.  What others do besides does not matter.
-/

set_option autoImplicit false
set_option relaxedAutoImplicit false

namespace WorkBroker

open Net

namespace Visit

/-- The visit is a listing of so many failed messages at most. -/
structure Lists (v : Visit) (limit : Nat) (ids : List String) (truncated : Bool) : Prop where
  request : v.request = .listFailed (UInt32.ofNat limit)
  reply : v.reply = .failed ids truncated
  page : v.before.queue.IsPage limit ids truncated
  after : v.after = v.before

/-- The visit is an erasure: it takes the listed messages that have failed off the queue, tells
which they were, and changes nothing else. -/
structure Erases (v : Visit) (ids : List String) : Prop where
  request : v.request = .eraseFailed ids
  reply : v.reply = .erased (v.before.queue.eraseFailed ids).1
  after : v.after = { v.before with queue := v.before.queue.dropFailed ids.contains }

end Visit

namespace Monitor

open Hub (Orderly)
open Dialogue (Carried heard)

variable {c : Circumstances} {n : Nat} {h : Hub} {ids : List String}

section Pieces

variable {α : Type}

private theorem flatten_chunks (size : Nat) (xs : List α) : (chunks size xs).flatten = xs := by
  induction xs using chunks.induct size with
  | case1 => rw [chunks, List.flatten_nil]
  | case2 x rest ih =>
    rw [chunks, List.flatten_cons, ih, List.cons_append, List.take_append_drop]

private theorem length_of_mem_chunks {size : Nat} {xs piece : List α} (h : piece ∈ chunks size xs) :
    piece.length ≤ size + 1 := by
  induction xs using chunks.induct size with
  | case1 =>
    rw [chunks] at h
    exact absurd h List.not_mem_nil
  | case2 x rest ih =>
    rw [chunks] at h
    rcases List.mem_cons.mp h with rfl | h
    · rw [List.length_cons]
      exact Nat.succ_le_succ (List.length_take_le size rest)
    · exact ih h

private theorem chunks_of_short {size : Nat} {xs : List α} (some_there : xs ≠ [])
    (short : xs.length ≤ size + 1) : chunks size xs = [xs] := by
  cases xs with
  | nil => exact absurd rfl some_there
  | cons x rest =>
    have few : rest.length ≤ size := Nat.le_of_succ_le_succ short
    rw [chunks, List.take_of_length_le few, List.drop_of_length_le few, chunks]

end Pieces

section Programs

def unexpected {α : Type} (wanted : String) (got : Packet) : Dialogue (Except ClientError α) :=
  .reset (.done (.error (.protocol s!"expected {wanted}, got {got.kind}")))

def listing (limit : UInt32) : Dialogue (Except ClientError (List String × Bool)) :=
  .ask (.listFailed limit) fun
    | .error e => .done (.error e)
    | .ok (.failed ids truncated) => .done (.ok (ids, truncated))
    | .ok other => unexpected "Failed" other

def erasing : List (List String) → Dialogue (Except ClientError (List String))
  | [] => .done (.ok [])
  | ids :: rest => .ask (.eraseFailed ids) fun
    | .error e => .done (.error e)
    | .ok (.erased erased) => (erasing rest).bind fun
      | .error e => .done (.error e)
      | .ok others => .done (.ok (erased ++ others))
    | .ok other => unexpected "Erased" other

def purging : Nat → Nat → Dialogue (Except ClientError Purge)
  | 0, total => .done (.ok (.unfinished total))
  | rounds + 1, total => (listing (UInt32.ofNat maxIds)).bind fun
    | .error e => .done (.error e)
    | .ok ([], _) => .done (.ok (.done total))
    | .ok (ids, truncated) => (erasing (chunks (maxIds - 1) ids)).bind fun
      | .error e => .done (.error e)
      | .ok erased =>
        let total := total + erased.length
        if !truncated || erased.isEmpty then .done (.ok (.done total)) else purging rounds total

private theorem client_listing (limit : UInt32) : (listing limit).client = failed limit := by
  rw [listing, failed, Dialogue.client]
  congr
  funext reply
  cases reply with
  | error e => rfl
  | ok reply => cases reply <;> rfl

private theorem client_erasing (pieces : List (List String)) :
    (erasing pieces).client = eraseChunks pieces := by
  induction pieces with
  | nil => rfl
  | cons ids rest ih =>
    rw [erasing, eraseChunks, Dialogue.client]
    congr
    funext reply
    cases reply with
    | error e => rfl
    | ok reply =>
      cases reply with
      | erased erased =>
        dsimp only
        rw [Dialogue.client_bind, ih]
        congr
        funext others
        cases others <;> rfl
      | _ => rfl

private theorem client_purging (rounds total : Nat) :
    (purging rounds total).client = purgeFrom rounds total := by
  induction rounds generalizing total with
  | zero => rfl
  | succ rounds ih =>
    rw [purging, purgeFrom, Dialogue.client_bind, client_listing]
    congr
    funext page
    cases page with
    | error e => rfl
    | ok page =>
      obtain ⟨_ | ⟨id, ids⟩, truncated⟩ := page
      · rfl
      · dsimp only
        rw [Dialogue.client_bind, client_erasing, eraseFailed]
        congr
        funext erased
        cases erased with
        | error e => rfl
        | ok erased =>
          dsimp only
          split_ifs
          · rfl
          · exact ih _

end Programs

section Hub

private theorem orderly_before (o : Orderly n h) : Orderly (c.turnsBefore n) (c.hubBefore n h) :=
  o.steps (c.others n)

private theorem hubBefore_of_alone (alone : ∀ k, c.others k = []) (n : Nat) (h : Hub) :
    c.hubBefore n h = h := by
  rw [Circumstances.hubBefore, alone]
  rfl

private theorem isFailed_before (o : Orderly n h) {p reply : Packet} {after : Hub}
    (calm : (c.visit n h p reply after).Calm) (id : String) :
    (c.hubBefore n h).queue.isFailed id = h.queue.isFailed id := by
  rw [Bool.eq_iff_iff]
  exact ⟨calm.unfailing id, o.isFailed_steps calm.spared⟩

/-- A listing of a full packet under some circumstances. -/
structure Listed (c : Circumstances) (n : Nat) (h : Hub) (v : Visit) (ids : List String)
    (truncated : Bool) : Prop where
  lists : v.Lists maxIds ids truncated
  before : v.before = c.hubBefore n h
  same : v.Calm → ∀ id, (c.hubBefore n h).queue.isFailed id = h.queue.isFailed id
  orderly : Orderly (c.turnsBefore n + 1) (c.hubBefore n h)
  run : (listing (UInt32.ofNat maxIds)).run .monitor c n h = some
    (Dialogue.Run.behind ⟨[], .ok (ids, truncated), c.turnsBefore n + 1, c.hubBefore n h⟩ v)

private theorem listing_run (o : Orderly n h) :
    ∃ v ids truncated, Listed c n h v ids truncated := by
  have before : Orderly (c.turnsBefore n) (c.hubBefore n h) := orderly_before o
  have page := before.coherent.isPage_failedIds maxIds
  have answered := before.answer_listFailed c.settings (c.owner n) (c.moment n)
    (UInt32.ofNat maxIds)
  have full : min (UInt32.ofNat maxIds).toNat maxIds = maxIds := by decide
  rw [full] at answered
  exact ⟨_, _, _, ⟨rfl, rfl, page, rfl⟩, rfl, isFailed_before o, before.after_listing,
    Dialogue.run_ask answered rfl⟩

namespace Listed

variable {v : Visit} {truncated : Bool}

private theorem page (l : Listed c n h v ids truncated) :
    (c.hubBefore n h).queue.IsPage maxIds ids truncated := l.before ▸ l.lists.page

private theorem short (l : Listed c n h v ids truncated) : ids.length ≤ maxIds := by
  rw [l.page.length_eq]
  exact Nat.min_le_left _ _

private theorem number (l : Listed c n h v ids truncated) (o : Orderly n h) (calm : v.Calm) :
    (c.hubBefore n h).queue.failed = h.queue.failed :=
  l.orderly.coherent.failed_congr o.coherent (l.same calm)

end Listed

private def erasure (c : Circumstances) (n : Nat) (h : Hub) (ids : List String) : Visit :=
  c.visit n h (.eraseFailed ids) (.erased ((c.hubBefore n h).queue.eraseFailed ids).1)
    ((c.hubBefore n h).erase ids)

private theorem erases_erasure (o : Orderly n h) (ids : List String) :
    (erasure c n h ids).Erases ids := by
  have before : Orderly (c.turnsBefore n) (c.hubBefore n h) := orderly_before o
  refine ⟨rfl, rfl, ?_⟩
  show (c.hubBefore n h).erase ids = _
  rw [Hub.erase, before.coherent.eraseFailed_snd]
  rfl

private theorem erasing_cons_run (o : Orderly n h) {rest : List (List String)}
    {r : Dialogue.Run (Except ClientError (List String))} {others : List String}
    (ran : (erasing rest).run .monitor c (c.turnsBefore n + 1) ((c.hubBefore n h).erase ids) =
      some r)
    (result : r.result = .ok others) :
    (erasing (ids :: rest)).run .monitor c n h = some (Dialogue.Run.behind
      { r with result := .ok (((c.hubBefore n h).queue.eraseFailed ids).1 ++ others) }
      (erasure c n h ids)) := by
  have before : Orderly (c.turnsBefore n) (c.hubBefore n h) := orderly_before o
  have answered := before.answer_eraseFailed c.settings (c.owner n) (c.moment n) ids
  exact Dialogue.run_ask answered (Dialogue.run_bind_done ran (by rw [result]))

/-- What comes of erasing some messages, in however many pieces. -/
structure Erased (c : Circumstances) (h : Hub) (ids : List String)
    (r : Dialogue.Run (Except ClientError (List String))) : Prop where
  orderly : Orderly r.turns r.hub
  told : Calm r.visits → r.result = .ok (h.queue.eraseFailed ids).1
  gone : Calm r.visits → ∀ id,
    r.hub.queue.isFailed id = (h.queue.eraseFailed ids).2.isFailed id
  alone : (∀ k, c.others k = []) → r.hub = h.erase ids

private theorem erasing_run (o : Orderly n h) (pieces : List (List String)) :
    ∃ r erased, (erasing pieces).run .monitor c n h = some r ∧ r.result = .ok erased ∧
      List.Forall₂ Visit.Erases r.visits pieces ∧ Erased c h pieces.flatten r := by
  induction pieces generalizing n h with
  | nil => exact ⟨_, _, rfl, rfl, .nil, o, fun _ => rfl, fun _ _ => rfl, fun _ => rfl⟩
  | cons ids rest ih =>
    have before : Orderly (c.turnsBefore n) (c.hubBefore n h) := orderly_before o
    obtain ⟨r, others, ran, result, visits, went⟩ := ih (before.after_erasure ids)
    refine ⟨_, _, erasing_cons_run o ran result, rfl, .cons (erases_erasure o ids) visits,
      went.orderly, ?_, ?_, ?_⟩
    · -- What others do before the first piece does not change which messages have failed.
      intro calm
      obtain ⟨first, later⟩ := calm.cons
      obtain rfl := Except.ok.inj (result.symm.trans (went.told later))
      have same := isFailed_before o first
      rw [← Queue.eraseFailed_fst_congr same, List.flatten_cons, Queue.eraseFailed_append]
      rfl
    · intro calm id
      obtain ⟨first, later⟩ := calm.cons
      have same := isFailed_before o first
      refine (went.gone later id).trans ?_
      rw [Hub.erase, List.flatten_cons]
      simp only [Queue.isFailed_eraseFailed, same, List.contains_append, Bool.not_or,
        Bool.and_assoc]
    · intro alone
      refine (went.alone alone).trans ?_
      rw [hubBefore_of_alone alone, List.flatten_cons, Hub.erase, Hub.erase, Hub.erase,
        Queue.eraseFailed_append]

/-- The visits of a purge: every page that is listed and is not empty is erased. -/
inductive Paged : List Visit → Prop
  | spent : Paged []
  | empty {v : Visit} {truncated : Bool} (lists : v.Lists maxIds [] truncated) : Paged [v]
  | page {v v' : Visit} {ids : List String} {truncated : Bool} {rest : List Visit}
      (lists : v.Lists maxIds ids truncated) (erases : v'.Erases ids) (others : Paged rest) :
      Paged (v :: v' :: rest)

section Rounds

variable {v : Visit} {truncated : Bool} {rounds total : Nat} {erased : List String}
  {r : Dialogue.Run (Except ClientError (List String))}
  {r' : Dialogue.Run (Except ClientError Purge)}

private theorem purging_run_empty (l : Listed c n h v [] truncated) (rounds total : Nat) :
    (purging (rounds + 1) total).run .monitor c n h = some
      (Dialogue.Run.behind ⟨[], .ok (.done total), c.turnsBefore n + 1, c.hubBefore n h⟩ v) :=
  Dialogue.run_bind_done l.run rfl

/-- What comes of erasing a page that has been listed, in one piece. -/
structure Cleared (c : Circumstances) (n : Nat) (h : Hub) (ids erased : List String)
    (r : Dialogue.Run (Except ClientError (List String))) : Prop
    extends Erased c (c.hubBefore n h) ids r where
  run : (erasing (chunks (maxIds - 1) ids)).run .monitor c (c.turnsBefore n + 1)
    (c.hubBefore n h) = some r
  result : r.result = .ok erased
  visits : ∃ v', r.visits = [v'] ∧ v'.Erases ids

private theorem Listed.clearing (l : Listed c n h v ids truncated) (some_there : ids ≠ []) :
    ∃ r erased, Cleared c n h ids erased r := by
  obtain ⟨r, erased, ran, result, visits, went⟩ := erasing_run (c := c) l.orderly [ids]
  have piece : chunks (maxIds - 1) ids = [ids] := chunks_of_short some_there l.short
  obtain ⟨v', others, erases, none_more, one⟩ := List.forall₂_cons_right_iff.mp visits
  obtain rfl := List.forall₂_nil_right_iff.mp none_more
  rw [List.flatten_singleton] at went
  exact ⟨r, erased, went, piece ▸ ran, result, v', one, erases⟩

private theorem purging_run_last (l : Listed c n h v ids truncated) (some_there : ids ≠ [])
    (d : Cleared c n h ids erased r) (ended : (!truncated || erased.isEmpty) = true)
    (rounds total : Nat) :
    (purging (rounds + 1) total).run .monitor c n h =
      some (Dialogue.Run.behind { r with result := .ok (.done (total + erased.length)) } v) := by
  refine Dialogue.run_bind l.run ?_
  obtain ⟨id, rest, rfl⟩ := List.exists_cons_of_ne_nil some_there
  refine Dialogue.run_bind_done d.run ?_
  rw [d.result]
  exact if_pos ended

private theorem purging_run_more (l : Listed c n h v ids truncated) (some_there : ids ≠ [])
    (d : Cleared c n h ids erased r) (more : ¬(!truncated || erased.isEmpty) = true)
    (later : (purging rounds (total + erased.length)).run .monitor c r.turns r.hub = some r') :
    (purging (rounds + 1) total).run .monitor c n h =
      some (Dialogue.Run.behind { r' with visits := r.visits ++ r'.visits } v) := by
  refine Dialogue.run_bind l.run ?_
  obtain ⟨id, rest, rfl⟩ := List.exists_cons_of_ne_nil some_there
  refine Dialogue.run_bind d.run ?_
  rw [d.result]
  dsimp only
  rwa [if_neg more]

/-- A page that is erased in calm goes as a whole, and no other failed message does. -/
theorem Cleared.of_calm (d : Cleared c n h ids erased r) (l : Listed c n h v ids truncated)
    (o : Orderly n h) (first : v.Calm) (later : Calm r.visits) :
    erased = ids ∧ ids.length = min maxIds h.queue.failed ∧
      r.hub.queue.failed = h.queue.failed - maxIds ∧
      (truncated = true ↔ maxIds < h.queue.failed) := by
  have coherent := l.orderly.coherent
  have told := d.told later
  rw [l.page.erased, d.result] at told
  have left := d.orderly.coherent.failed_congr
    ((Queue.moves_eraseFailed _ ids).coherent coherent) (d.gone later)
  rw [l.page.failed_left coherent] at left
  rw [← l.number o first]
  exact ⟨Except.ok.inj told, l.page.length_eq, left, l.page.truncated_iff⟩

/-- A purge that nobody interferes with, and that has rounds enough: it leaves no failed message,
tells how many there were, takes two visits for each page, and would not go on with more rounds. -/
structure Cleaned (c : Circumstances) (n : Nat) (h : Hub) (rounds total : Nat)
    (r : Dialogue.Run (Except ClientError Purge)) : Prop where
  told : r.result = .ok (.done (total + h.queue.failed))
  clean : r.hub.queue.failed = 0
  short : r.visits.length ≤ 2 * (h.queue.failed / maxIds + 1)
  steady : ∀ more, (purging (rounds + more) total).run .monitor c n h = some r
  alone : (∀ k, c.others k = []) → r.hub = { h with queue := h.queue.purged }

private theorem cleaned_empty (o : Orderly n h) (l : Listed c n h v [] truncated) (calm : v.Calm)
    (rounds total : Nat) :
    Cleaned c n h (rounds + 1) total
      (Dialogue.Run.behind ⟨[], .ok (.done total), c.turnsBefore n + 1, c.hubBefore n h⟩ v) := by
  have clean : (c.hubBefore n h).queue.failed = 0 := l.page.failed_eq_zero (by decide)
  have none_failed : h.queue.failed = 0 := (l.number o calm).symm.trans clean
  constructor
  · rw [none_failed]
    rfl
  · exact clean
  · show 1 ≤ 2 * (h.queue.failed / maxIds + 1)
    generalize h.queue.failed / maxIds = pages
    omega
  · intro more
    rw [Nat.add_right_comm]
    exact purging_run_empty l _ total
  · intro alone
    rw [o.coherent.purged_eq_self none_failed]
    exact hubBefore_of_alone alone n h

private theorem Cleared.purged (d : Cleared c n h ids erased r) (o : Orderly n h)
    (alone : ∀ k, c.others k = []) :
    { r.hub with queue := r.hub.queue.purged } = { h with queue := h.queue.purged } := by
  rw [d.alone alone, hubBefore_of_alone alone, Hub.erase, o.coherent.purged_eraseFailed]

private theorem cleaned_last (o : Orderly n h) (l : Listed c n h v ids truncated)
    (some_there : ids ≠ [])
    (d : Cleared c n h ids erased r) (ended : (!truncated || erased.isEmpty) = true)
    (first : v.Calm) (later : Calm r.visits) (rounds total : Nat) :
    Cleaned c n h (rounds + 1) total
      (Dialogue.Run.behind { r with result := .ok (.done (total + erased.length)) } v) := by
  obtain ⟨rfl, length, left, full⟩ := d.of_calm l o first later
  obtain ⟨v', one, -⟩ := d.visits
  have few : h.queue.failed ≤ maxIds := by
    have last : truncated = false := by simpa [some_there] using ended
    rw [last] at full
    exact Nat.not_lt.mp fun many => Bool.false_ne_true (full.mpr many)
  have clean : r.hub.queue.failed = 0 := by rw [left, Nat.sub_eq_zero_of_le few]
  constructor
  · rw [length, Nat.min_eq_right few]
    rfl
  · exact clean
  · show (v :: r.visits).length ≤ _
    rw [one]
    exact Nat.le_mul_of_pos_right 2 (Nat.succ_pos _)
  · intro more
    rw [Nat.add_right_comm]
    exact purging_run_last l some_there d ended _ total
  · intro alone
    rw [← d.purged o alone, d.orderly.coherent.purged_eq_self clean]
    rfl

private theorem cleaned_more (o : Orderly n h) (l : Listed c n h v ids truncated)
    (some_there : ids ≠ [])
    (d : Cleared c n h ids erased r) (more : ¬(!truncated || erased.isEmpty) = true)
    (first : v.Calm) (later : Calm r.visits)
    (rest : r.hub.queue.failed / maxIds < rounds →
      Cleaned c r.turns r.hub rounds (total + erased.length) r')
    (enough : h.queue.failed / maxIds < rounds + 1) :
    Cleaned c n h (rounds + 1) total
      (Dialogue.Run.behind { r' with visits := r.visits ++ r'.visits } v) := by
  obtain ⟨rfl, length, left, full⟩ := d.of_calm l o first later
  obtain ⟨v', one, -⟩ := d.visits
  have goes_on : truncated = true ∧ erased ≠ [] := by simpa using more
  have many : maxIds < h.queue.failed := full.mp goes_on.1
  -- There is a page less to go than before.
  have fewer : h.queue.failed / maxIds = r.hub.queue.failed / maxIds + 1 := by
    rw [left]
    exact Nat.div_eq_sub_div (by decide) (Nat.le_of_lt many)
  rw [fewer] at enough
  have went := rest (Nat.lt_of_succ_lt_succ enough)
  constructor
  · refine went.told.trans ?_
    rw [length, left, Nat.min_eq_left (Nat.le_of_lt many), Nat.add_assoc,
      Nat.add_sub_cancel' (Nat.le_of_lt many)]
  · exact went.clean
  · show (v :: (r.visits ++ r'.visits)).length ≤ _
    have short := went.short
    rw [one, fewer, List.length_cons, List.length_append, List.length_singleton]
    omega
  · intro further
    rw [Nat.add_right_comm]
    exact purging_run_more l some_there d more (went.steady further)
  · intro alone
    rw [← d.purged o alone]
    exact went.alone alone

end Rounds

/-- However a purge goes, it is carried through; and in calm it is complete. -/
theorem purging_run (o : Orderly n h) (rounds total : Nat) :
    ∃ r purge, (purging rounds total).run .monitor c n h = some r ∧ r.result = .ok purge ∧
      Orderly r.turns r.hub ∧ Paged r.visits ∧
      (h.queue.failed / maxIds < rounds → Calm r.visits → Cleaned c n h rounds total r) := by
  induction rounds generalizing n h total with
  | zero => exact ⟨_, _, rfl, rfl, o, .spent, fun enough => absurd enough (Nat.not_lt_zero _)⟩
  | succ rounds ih =>
    obtain ⟨v, ids, truncated, l⟩ := listing_run (c := c) o
    by_cases some_there : ids = []
    · obtain rfl := some_there
      exact ⟨_, _, purging_run_empty l rounds total, rfl, l.orderly, .empty l.lists,
        fun _ calm => cleaned_empty o l calm.cons.1 rounds total⟩
    · obtain ⟨r, erased, d⟩ := l.clearing some_there
      obtain ⟨v', one, erases⟩ := d.visits
      by_cases ended : (!truncated || erased.isEmpty) = true
      · refine ⟨_, _, purging_run_last l some_there d ended rounds total, rfl, d.orderly, ?_, ?_⟩
        · show Paged (v :: r.visits)
          rw [one]
          exact .page l.lists erases .spent
        · intro _ calm
          exact cleaned_last o l some_there d ended calm.cons.1 calm.cons.2 rounds total
      · obtain ⟨r', purge, ran, result, o', paged, cleaned⟩ := ih d.orderly (total + erased.length)
        refine ⟨_, _, purging_run_more l some_there d ended ran, result, o', ?_, ?_⟩
        · show Paged (v :: (r.visits ++ r'.visits))
          rw [one]
          exact .page l.lists erases paged
        · intro enough calm
          obtain ⟨first, calm⟩ := calm.cons
          obtain ⟨second, later⟩ := calm.append
          exact cleaned_more o l some_there d ended first second (cleaned · later) enough

end Hub

section Whole

/-- How a call to erase some messages goes, whatever others do: it is carried through, in requests
that may be sent, of which each erases its piece and leaves the rest alone.  In calm it comes to
what one erasure of the whole list would have come to. -/
structure ErasesAsOne (c : Circumstances) (n : Nat) (h : Hub) (ids : List String)
    (r : Dialogue.Run (Except ClientError (List String))) : Prop where
  run : (erasing (chunks (maxIds - 1) ids)).run .monitor c n h = some r
  traces : ∀ s trace s', Carried r.visits s trace s' →
    (eraseFailed ids s).Traces trace (r.result, s')
  pieces : ∃ pieces, List.Forall₂ Visit.Erases r.visits pieces ∧ pieces.flatten = ids ∧
    ∀ piece ∈ pieces, piece.length ≤ maxIds
  sendable : (∀ id ∈ ids, checkId "message id" id false = .ok ()) →
    ∀ v ∈ r.visits, ∀ codec : PacketCodec, codec.validate v.request = .ok ()
  told : Calm r.visits → r.result = .ok (h.queue.eraseFailed ids).1
  gone : Calm r.visits → ∀ id,
    r.hub.queue.isFailed id = (h.queue.eraseFailed ids).2.isFailed id
  alone : (∀ k, c.others k = []) →
    Calm r.visits ∧ r.hub = { h with queue := (h.queue.eraseFailed ids).2 }

/-- How a call to erase all failed messages goes, in so many rounds at most: page by page.  In calm
it ends by itself, no failed message is left, and the call tells how many there were. -/
structure PurgesAll (c : Circumstances) (n : Nat) (h : Hub) (rounds : Nat)
    (r : Dialogue.Run (Except ClientError Purge)) : Prop where
  run : (purging rounds 0).run .monitor c n h = some r
  traces : ∀ s trace s', Carried r.visits s trace s' →
    (purgeFailed rounds s).Traces trace (r.result, s')
  paged : Paged r.visits
  ends : Calm r.visits → ∀ more, (purging (rounds + more) 0).run .monitor c n h = some r
  short : Calm r.visits → r.visits.length ≤ 2 * rounds
  told : Calm r.visits → r.result = .ok (.done (h.queue.messages.countP (·.state == .failed)))
  clean : Calm r.visits → ∀ m ∈ r.hub.queue.messages, m.state ≠ .failed
  alone : (∀ k, c.others k = []) → Calm r.visits ∧ r.hub = { h with queue := h.queue.purged }

private theorem sendable_of_erases {visits : List Visit} {pieces : List (List String)}
    (erases : List.Forall₂ Visit.Erases visits pieces)
    (fit : ∀ piece ∈ pieces, PacketCodec.checkIds piece = .ok ()) :
    ∀ v ∈ visits, ∀ codec : PacketCodec, codec.validate v.request = .ok () := by
  induction erases with
  | nil => exact fun v hv => absurd hv List.not_mem_nil
  | cons first others ih =>
    obtain ⟨fits, fit⟩ := List.forall_mem_cons.mp fit
    refine List.forall_mem_cons.mpr ⟨fun codec => ?_, ih fit⟩
    rw [first.request]
    exact fits

private theorem erasesAsOne (o : Orderly n h) (ids : List String) :
    ∃ r, ErasesAsOne c n h ids r := by
  obtain ⟨r, erased, ran, result, visits, went⟩ :=
    erasing_run (c := c) o (chunks (maxIds - 1) ids)
  have whole : (chunks (maxIds - 1) ids).flatten = ids := flatten_chunks _ ids
  rw [whole] at went
  have small : ∀ piece ∈ chunks (maxIds - 1) ids, piece.length ≤ maxIds := fun piece hpiece =>
    length_of_mem_chunks hpiece
  refine ⟨r, ran, ?_, ⟨_, visits, whole, small⟩, ?_, went.told, went.gone, ?_⟩
  · intro s trace s' carried
    have traced := Dialogue.traces_client ran carried
    rwa [client_erasing] at traced
  · intro valid
    refine sendable_of_erases visits fun piece hpiece => ?_
    refine PacketCodec.checkIds_eq_ok (small piece hpiece) fun id hid => valid id ?_
    rw [← whole]
    exact List.mem_flatten.mpr ⟨piece, hpiece, hid⟩
  · exact fun alone => ⟨calm_of_alone alone ran, went.alone alone⟩

private theorem purgesAll (o : Orderly n h) :
    ∃ r, PurgesAll c n h (h.queue.failed / maxIds + 1) r := by
  obtain ⟨r, purge, ran, result, o', paged, cleaned⟩ :=
    purging_run (c := c) o (h.queue.failed / maxIds + 1) 0
  have cleaned := cleaned (Nat.lt_succ_self _)
  refine ⟨r, ran, ?_, paged, ?_, ?_, ?_, ?_, ?_⟩
  · intro s trace s' carried
    have traced := Dialogue.traces_client ran carried
    rwa [client_purging] at traced
  · exact fun calm => (cleaned calm).steady
  · exact fun calm => (cleaned calm).short
  · intro calm
    rw [(cleaned calm).told, Nat.zero_add, o.coherent.failed_eq]
  · intro calm m hm
    have none_failed := o'.coherent.failed_eq.symm.trans (cleaned calm).clean
    simpa using List.countP_eq_zero.mp none_failed m hm
  · intro alone
    have calm := calm_of_alone alone ran
    exact ⟨calm, (cleaned calm).alone alone⟩

/-- Cleaning up failed messages is complete, at every hub that can be reached.  A list of any length
is erased as if at once; and a purge, which never needs more than one round for each full page and
one for the rest, leaves no failed message, and touches no other. -/
theorem cleanup_is_complete (limits : QueueSettings) (past : List Turn) (c : Circumstances) :
    (∀ ids, ∃ r, ErasesAsOne c past.length (Hub.life limits past).2 ids r) ∧
      ∃ r, PurgesAll c past.length (Hub.life limits past).2
        ((Hub.life limits past).2.queue.failed / maxIds + 1) r :=
  have o := Hub.orderly_life limits past
  ⟨erasesAsOne o, purgesAll o⟩

/-- A consumer takes a message that may not be retried, and goes. -/
def oneFailed : List Turn :=
  let m : Moment := .steady (fun _ => true) .start
  [.request m (.push 1 "a" [] 0 .zero), .request m (.pop 2 false), .request m (.release 2)]

def noRetries : QueueSettings := { QueueSettings.standard with maxRetries := 0 }

def undisturbed : Circumstances where
  settings := {}
  owner _ := 3
  moment _ := .steady (fun _ => true) .start
  others _ := []

def purgeReplies (_ : Nat) : List Packet :=
  [.welcome ⟨1, 1048576, 2⟩, .failed ["a"] false, .erased ["a"]]

private theorem fair_purgeReplies (link : Nat) : (purgeReplies link).all Answers.isFair = true := by
  rw [purgeReplies]
  decide +kernel

def answering : (action : Action) → Wires × Nat → action.Outcome × (Wires × Nat) :=
  (Answers.script purgeReplies fair_purgeReplies).prompt fun _ _ => false

def newcomer : Session where
  config := { brokers := ["b"], clientId := some "m" }
  role := .monitor
  connection := none

theorem one_failed_is_purged : ∃ r trace s',
    PurgesAll undisturbed 3 (Hub.life noRetries oneFailed).2 1 r ∧
      Carried r.visits newcomer trace s' ∧
      (purgeFailed 1 newcomer).Traces trace (.ok (.done 1), s') ∧
      r.hub.queue.messages = [] ∧ r.hub.queue.stats.erased = 1 := by
  obtain ⟨-, r, purges⟩ := cleanup_is_complete noRetries oneFailed undisturbed
  obtain ⟨calm, hub⟩ := purges.alone fun _ => rfl
  have one : r.result = .ok (.done 1) := (purges.told calm).trans (by decide +kernel)
  have over_network : ((purging 1 0).run .monitor undisturbed 3
      (Hub.life noRetries oneFailed).2).all fun r =>
        Dialogue.carries answering (r.visits.map fun v => (v.request, v.reply)) newcomer
          (.blank, 0) := by decide +kernel
  have ran : (purging 1 0).run .monitor undisturbed 3 (Hub.life noRetries oneFailed).2 = some r :=
    purges.run
  rw [ran] at over_network
  obtain ⟨trace, s', carried⟩ := Dialogue.carried_of_carries over_network
  refine ⟨r, trace, s', purges, carried, one ▸ purges.traces _ _ _ carried, ?_, ?_⟩
  · rw [hub]
    decide +kernel
  · rw [hub]
    decide +kernel

end Whole

end Monitor
end WorkBroker
