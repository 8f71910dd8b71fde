import GhostlySession.Server.Scan

/-!
# `server_broadcast` over any table

`server_broadcast` walks the table from its last index down to `0` and, when `send_msg` fails,
calls `server_remove_client`, which moves the last entry into the failed slot. The entry moved
there sits at an index the loop has already passed, so it is never sent to twice, and the entries
below the current index are never touched (`swapRemove_take`), so none is skipped.

`broadcastLoop_spec` is the loop invariant, by induction on the index: from index `k`, the loop
sends once to each of the first `k` entries of the table it starts from, from the top down, with
the `k`-th outcome for the `k`-th entry; it removes exactly those whose send failed, in the same
order; and it leaves the first `k` entries that succeeded, with the entries above `k` it started
with, in some order (`swapRemove_drop_perm`). `broadcast_exact` is the invariant for the whole
table.
-/

namespace GhostlySession

/-- The `send_msg` calls of a log: the descriptor and the result. -/
def sendsOf (log : List Event) : List (Int × Bool) :=
  log.filterMap fun e => match e with
    | .send fd _ ok => some (fd, ok)
    | _ => none

@[simp] theorem sendsOf_append (l l' : List Event) : sendsOf (l ++ l') = sendsOf l ++ sendsOf l' :=
  List.filterMap_append _ _ _

@[simp] theorem sendsOf_cons_send (fd : Int) (f : Frame) (ok : Bool) (l : List Event) :
    sendsOf (.send fd f ok :: l) = (fd, ok) :: sendsOf l := rfl

@[simp] theorem sendsOf_cons_remove (i : Nat) (fd : Int) (n : Nat) (l : List Event) :
    sendsOf (.remove i fd n :: l) = sendsOf l := rfl

@[simp] theorem removedFds_cons_send (fd : Int) (f : Frame) (ok : Bool) (l : List Event) :
    removedFds (.send fd f ok :: l) = removedFds l := rfl

@[simp] theorem removedFds_cons_remove (i : Nat) (fd : Int) (n : Nat) (l : List Event) :
    removedFds (.remove i fd n :: l) = fd :: removedFds l := rfl

/-! ### What a removal does to the table around the index -/

theorem getD_eq_of_take_eq {l l' : List Int} {k i : Nat} (h : l'.take k = l.take k) (hi : i < k) :
    l'.getD i 0 = l.getD i 0 := by
  rw [List.getD_eq_getElem?_getD, List.getD_eq_getElem?_getD, ← List.getElem?_take_of_lt hi, h,
    List.getElem?_take_of_lt hi]

theorem swapRemove_drop_perm {l : List Int} {i : Nat} (h : i < l.length) :
    ((swapRemove l i).drop i).Perm (l.drop (i + 1)) := by
  obtain ⟨a, x, b, rfl, rfl⟩ : ∃ a x b, l = a ++ x :: b ∧ a.length = i :=
    ⟨l.take i, l[i], l.drop (i + 1), by simp, by simp; omega⟩
  rcases List.eq_nil_or_concat b with rfl | ⟨b, y, rfl⟩
  · simp [swapRemove, List.set_append_right]
  · have hl : (a ++ x :: (b ++ [y])).getLastD 0 = y := by
      rw [← List.cons_append, ← List.append_assoc, List.getLastD_concat]
    have hd : (y :: (b ++ [y])).dropLast = y :: b := by
      rw [← List.cons_append, List.dropLast_concat]
    rw [List.concat_eq_append, swapRemove, hl, List.set_append_right _ _ (le_refl _), Nat.sub_self,
      List.set_cons_zero, List.dropLast_append_of_ne_nil _ (by simp), hd]
    simpa using (List.perm_append_singleton y b).symm

theorem map_getD_range (l : List Int) : (List.range l.length).map (l.getD · 0) = l :=
  List.ext_getElem (by simp) fun i _ h => by simp [h]

/-! ### The loop -/

/-- **The loop invariant.** From index `k`, the loop sends once to each of the first `k` entries,
from the top down, with the outcome of their index; it removes exactly the entries whose send
failed, in the same order; and it leaves the first `k` entries that succeeded together with the
entries above `k`, in some order. -/
theorem broadcastLoop_spec (f : Frame) (ok : Nat → Bool) :
    ∀ (k : Nat) (d : Daemon), k ≤ d.srv.clientFds.length →
      ∃ new, (broadcastLoop f ok k d).log = d.log ++ new ∧
        sendsOf new = ((List.range k).map fun i => (d.srv.clientFds.getD i 0, ok i)).reverse ∧
        removedFds new =
          (((List.range k).filter fun i => !ok i).map (d.srv.clientFds.getD · 0)).reverse ∧
        (broadcastLoop f ok k d).srv.clientFds.Perm
          (((List.range k).filter ok).map (d.srv.clientFds.getD · 0) ++ d.srv.clientFds.drop k)
  | 0, d, _ => ⟨[], by simp [broadcastLoop], rfl, rfl, by simp [broadcastLoop]⟩
  | k + 1, d, hk => by
    have hlt : k < d.srv.clientFds.length := hk
    have hdrop := List.drop_eq_getElem_cons hlt
    rw [← List.getD_eq_getElem _ 0 hlt] at hdrop
    simp only [broadcastLoop]
    cases hok : ok k with
    | true =>
      obtain ⟨new, hlog, hs, hr, hp⟩ := broadcastLoop_spec f ok k
        (d.emit (.send (d.srv.clientFds.getD k 0) f (ok k))) (by simp only [Daemon.emit_srv]; omega)
      simp only [if_true, Daemon.emit_srv, Daemon.emit_log, hok] at hlog hs hr hp ⊢
      refine ⟨.send (d.srv.clientFds.getD k 0) f true :: new, by rw [hlog]; simp, ?_, ?_, ?_⟩
      · simp only [sendsOf_cons_send, hs, List.range_succ, List.map_append, List.map_singleton,
          List.reverse_append, List.reverse_singleton, List.singleton_append, hok]
      · simp only [removedFds_cons_send, hr, List.range_succ, List.filter_append,
          List.filter_singleton, hok, Bool.not_true, cond_false, List.append_nil]
      · rw [List.range_succ, List.filter_append, List.filter_singleton, hok, cond_true,
          List.map_append, List.map_singleton, List.append_assoc, List.singleton_append, ← hdrop]
        exact hp
    | false =>
      have hget : ∀ i ∈ List.range k,
          (swapRemove d.srv.clientFds k).getD i 0 = d.srv.clientFds.getD i 0 :=
        fun i hi => getD_eq_of_take_eq (swapRemove_take hlt) (List.mem_range.1 hi)
      have hget' : ∀ l ⊆ List.range k, l.map ((swapRemove d.srv.clientFds k).getD · 0) =
          l.map (d.srv.clientFds.getD · 0) :=
        fun l hl => List.map_congr_left fun i hi => hget i (hl hi)
      obtain ⟨new, hlog, hs, hr, hp⟩ := broadcastLoop_spec f ok k
        (serverRemoveClient (d.emit (.send (d.srv.clientFds.getD k 0) f (ok k))) k)
        (by simp only [serverRemoveClient_srv, Daemon.emit_srv, swapRemove_length]; omega)
      simp only [hok, Bool.false_eq_true, if_false, serverRemoveClient_srv, serverRemoveClient_log,
        Daemon.emit_srv, Daemon.emit_log] at hlog hs hr hp ⊢
      rw [hget' _ (List.filter_subset' _)] at hr hp
      rw [List.map_congr_left (g := fun i => (d.srv.clientFds.getD i 0, ok i))
        fun i hi => by rw [hget i hi]] at hs
      refine ⟨.send (d.srv.clientFds.getD k 0) f false ::
          .remove k (d.srv.clientFds.getD k 0) d.srv.clientFds.length :: new,
        by rw [hlog]; simp, ?_, ?_, ?_⟩
      · simp only [sendsOf_cons_send, sendsOf_cons_remove, hs, List.range_succ, List.map_append,
          List.map_singleton, List.reverse_append, List.reverse_singleton, List.singleton_append,
          hok]
      · simp only [removedFds_cons_send, removedFds_cons_remove, hr, List.range_succ,
          List.filter_append, List.filter_singleton, hok, Bool.not_false, cond_true,
          List.map_append, List.map_singleton, List.reverse_append, List.reverse_singleton,
          List.singleton_append]
      · rw [List.range_succ, List.filter_append, List.filter_singleton, hok, cond_false,
          List.append_nil]
        exact hp.trans ((swapRemove_drop_perm hlt).append_left _)

/-- **`server_broadcast` sends to each client once and keeps exactly the successful ones.** Over
any table `T` and any outcomes `ok` of `send_msg`, the broadcast calls `send_msg` once on each
entry of `T` and on nothing else, calls `server_remove_client` on exactly the entries whose send
failed, and leaves a table holding the entries whose send succeeded, of `T`'s length less the
failures. -/
theorem broadcast_exact (f : Frame) (ok : Nat → Bool) (d : Daemon) :
    ∃ new, (serverBroadcast f ok d).log = d.log ++ new ∧
      sendsOf new = ((List.range d.srv.clientFds.length).map
        fun i => (d.srv.clientFds.getD i 0, ok i)).reverse ∧
      (sendsOf new).map Prod.fst = d.srv.clientFds.reverse ∧
      removedFds new = (((List.range d.srv.clientFds.length).filter fun i => !ok i).map
        (d.srv.clientFds.getD · 0)).reverse ∧
      (serverBroadcast f ok d).srv.clientFds.Perm
        (((List.range d.srv.clientFds.length).filter ok).map (d.srv.clientFds.getD · 0)) ∧
      (serverBroadcast f ok d).srv.clientFds.length = d.srv.clientFds.length -
        ((List.range d.srv.clientFds.length).filter fun i => !ok i).length := by
  obtain ⟨new, hlog, hs, hr, hp⟩ := broadcastLoop_spec f ok _ d le_rfl
  rw [List.drop_length, List.append_nil] at hp
  have hlen := List.length_eq_length_filter_add (l := List.range d.srv.clientFds.length) ok
  refine ⟨new, hlog, hs, ?_, hr, hp, ?_⟩
  · rw [hs, List.map_reverse, List.map_map]
    exact congrArg List.reverse (map_getD_range _)
  · rw [serverBroadcast, hp.length_eq, List.length_map]
    simp only [List.length_range] at hlen
    omega

end GhostlySession
