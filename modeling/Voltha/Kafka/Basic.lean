import Mathlib.Data.List.Perm.Basic
import Mathlib.Data.List.Basic

/-!
# Channels, broker-level consumers and the two teardown primitives

Go compares channels by identity, so a subscriber channel is its allocation number. A
registry entry (`consumerChannels`) holds the broker-level consumers of one topic, each a
partition consumer or a group consumer, and the channels of its subscribers.

`removeChannel` works on a Go slice. It swaps the first occurrence of the channel with the
last element of the caller's backing array, closes the channel and returns the slice one
shorter. The three effects are kept apart here, because the teardown loops discard the
returned slice and keep reading the permuted array. `closeConsumers` calls `Close` once on
every consumer; the broker answers each call.
-/

namespace Voltha.Kafka

/-- A Go channel, by identity. -/
abbrev Chan := Nat

/-- The two sarama errors the client tests for, and any other error by its text. -/
inductive GoError where
  | errUnknownTopicOrPartition
  | errTopicAlreadyExists
  | msg (text : String)
  deriving DecidableEq, Repr

/-- `err.Error()`. The two sentinels are sarama's `KError` values, declared outside the
sources, with sarama's texts. -/
def GoError.error : GoError → String
  | .errUnknownTopicOrPartition =>
      "kafka server: Request was for a topic or partition that does not exist on this broker"
  | .errTopicAlreadyExists => "kafka server: Topic with this name already exists"
  | .msg text => text

/-- The two dynamic types stored in `consumers []interface{}`. -/
inductive Consumer where
  | partition (handle : Nat)
  | group (handle : Nat)
  deriving DecidableEq, Repr

/-- `consumerChannels`: the consumers listening on one topic and the channels they feed. -/
structure ConsumerChannels where
  consumers : List Consumer
  channels : List Chan
  deriving DecidableEq, Repr

instance : Inhabited ConsumerChannels := ⟨⟨[], []⟩⟩

/-! ## `removeChannel` -/

/-- What one call of `removeChannel` leaves behind. -/
structure Removal where
  /-- The caller's backing array after the swap. -/
  backing : List Chan
  /-- The channels `close` was called on. -/
  closed : List Chan
  /-- The slice `removeChannel` returns. -/
  result : List Chan
  deriving DecidableEq, Repr

/-- The tuple assignment `channels[last], channels[i] = channels[i], channels[last]` runs
its two stores left to right. -/
def removeChannel (channels : List Chan) (ch : Chan) : Removal :=
  let i := channels.indexOf ch
  let last := channels.length - 1
  if i < channels.length then
    let backing := (channels.set last (channels.getD i 0)).set i (channels.getD last 0)
    ⟨backing, [ch], backing.take last⟩
  else ⟨channels, [], channels⟩

example : removeChannel [5,6,7] 5 = ⟨[7,6,5], [5], [7,6]⟩ := by decide

theorem indexOf_first {pre post : List Chan} {ch : Chan} (h : ch ∉ pre) :
    (pre ++ ch::post).indexOf ch = pre.length := by
  rw [List.indexOf_append_of_not_mem h]; simp

theorem removeChannel_not_mem {channels : List Chan} {ch : Chan} (h : ch ∉ channels) :
    removeChannel channels ch = ⟨channels, [], channels⟩ := by
  simp [removeChannel, List.indexOf_lt_length, h]

theorem removeChannel_at_last (pre : List Chan) (ch : Chan) (h : ch ∉ pre) :
    removeChannel (pre ++ [ch]) ch = ⟨pre ++ [ch], [ch], pre⟩ := by
  simp [removeChannel, indexOf_first h, List.set_append_right]

theorem removeChannel_swap (pre mid : List Chan) (ch z : Chan) (h : ch ∉ pre) :
    removeChannel (pre ++ ch::(mid ++ [z])) ch =
      ⟨pre ++ z::(mid ++ [ch]), [ch], pre ++ z::mid⟩ := by
  simp [removeChannel, indexOf_first h, List.set_append_right, List.set_append_left,
    List.getElem_append_right, List.take_append_eq_append_take, List.take_of_length_le]

theorem exists_first_split {l : List Chan} {ch : Chan} (h : ch ∈ l) :
    ∃ pre post, l = pre ++ ch::post ∧ ch ∉ pre := by
  induction l with
  | nil => cases h
  | cons x xs ih =>
      by_cases hx : x = ch
      · exact ⟨[], xs, by rw [hx]; rfl, List.not_mem_nil _⟩
      · obtain ⟨pre, post, rfl, hpre⟩ := ih ((List.mem_cons.mp h).resolve_left (Ne.symm hx))
        exact ⟨x::pre, post, rfl, by simp [hpre, Ne.symm hx]⟩

/-- On a channel that is present, `removeChannel` closes it once, leaves it in the last
slot of the backing array and returns the rest, a permutation of the list without it. -/
theorem removeChannel_mem {channels : List Chan} {ch : Chan} (h : ch ∈ channels) :
    (removeChannel channels ch).closed = [ch] ∧
      (removeChannel channels ch).backing = (removeChannel channels ch).result ++ [ch] ∧
      (removeChannel channels ch).result.Perm (channels.erase ch) := by
  obtain ⟨pre, post, rfl, hpre⟩ := exists_first_split h
  have herase : (pre ++ ch::post).erase ch = pre ++ post := by
    rw [List.erase_append_right _ hpre, List.erase_cons_head]
  rw [herase]
  rcases List.eq_nil_or_concat post with rfl | ⟨mid, z, rfl⟩
  · simp [removeChannel_at_last pre ch hpre]
  · rw [List.concat_eq_append, removeChannel_swap pre mid ch z hpre]
    refine ⟨rfl, by simp, ?_⟩
    exact List.Perm.append_left pre (List.perm_append_singleton z mid).symm

theorem removeChannel_backing_perm (channels : List Chan) (ch : Chan) :
    (removeChannel channels ch).backing.Perm channels := by
  by_cases h : ch ∈ channels
  · obtain ⟨-, hb, hr⟩ := removeChannel_mem h
    rw [hb]
    exact (List.perm_append_comm.trans (hr.cons ch)).trans (List.perm_cons_erase h).symm
  · simp [removeChannel_not_mem h]

/-- `removeChannel` closes only a channel of its slice. -/
theorem removeChannel_closed_mem {arr : List Chan} {ch c : Chan}
    (h : c ∈ (removeChannel arr ch).closed) : c ∈ arr := by
  by_cases hch : ch ∈ arr
  · rw [(removeChannel_mem hch).1, List.mem_singleton] at h
    exact h ▸ hch
  · rw [removeChannel_not_mem hch] at h
    exact absurd h (List.not_mem_nil c)

/-- `removeChannel` closes at most the channel it removes. -/
theorem removeChannel_closed_eq {arr : List Chan} {ch c : Chan}
    (h : c ∈ (removeChannel arr ch).closed) : c = ch := by
  by_cases hch : ch ∈ arr
  · rwa [(removeChannel_mem hch).1, List.mem_singleton] at h
  · rw [removeChannel_not_mem hch] at h
    exact absurd h (List.not_mem_nil c)

/-- On distinct channels, `removeChannel` keeps every other channel and closes `ch` if it
is there. -/
theorem removeChannel_nodup {channels : List Chan} (hnd : channels.Nodup) (ch : Chan) :
    (removeChannel channels ch).result.Nodup ∧
      (∀ c, c ∈ (removeChannel channels ch).result ↔ c ∈ channels ∧ c ≠ ch) ∧
      (removeChannel channels ch).closed = if ch ∈ channels then [ch] else [] := by
  by_cases h : ch ∈ channels
  · obtain ⟨hc, -, hr⟩ := removeChannel_mem h
    refine ⟨hr.nodup_iff.mpr (hnd.erase ch), fun c => ?_, by simp [hc, h]⟩
    rw [hr.mem_iff, hnd.mem_erase_iff, and_comm]
  · rw [removeChannel_not_mem h]
    exact ⟨hnd, fun c => ⟨fun hc => ⟨hc, fun e => h (e ▸ hc)⟩, And.left⟩, by simp [h]⟩

/-- The tuple assignment swaps the first occurrence of `ch` with the last slot of the
caller's backing array. -/
theorem removeChannel_backing {channels : List Chan} {ch : Chan} (h : ch ∈ channels) :
    (removeChannel channels ch).backing =
      (channels.set (channels.indexOf ch) (channels.getD (channels.length - 1) 0)).set
        (channels.length - 1) ch := by
  have hi := List.indexOf_lt_length.mpr h
  have hget : channels.getD (channels.indexOf ch) 0 = ch := by
    simp [List.getD_eq_getElem?_getD, List.getElem?_eq_getElem hi]
  simp only [removeChannel, if_pos hi, hget]
  by_cases heq : channels.indexOf ch = channels.length - 1
  · rw [heq] at hget ⊢
    simp only [List.set_set, hget]
  · exact List.set_comm _ _ _ (Ne.symm heq)

/-- For every slice and every channel: on a channel that is in the slice, `removeChannel`
closes it and no other channel, swaps its first occurrence with the last element in the
caller's backing array, and returns that array less its last slot: one element shorter, with
the input's elements less that occurrence. On a channel that is not there it closes nothing
and leaves the slice as it was. -/
theorem removeChannel_spec (channels : List Chan) (ch : Chan) :
    (ch ∈ channels →
      (removeChannel channels ch).closed = [ch] ∧
      (removeChannel channels ch).backing =
        (channels.set (channels.indexOf ch) (channels.getD (channels.length - 1) 0)).set
          (channels.length - 1) ch ∧
      (removeChannel channels ch).result =
        (removeChannel channels ch).backing.take (channels.length - 1) ∧
      (removeChannel channels ch).result.length + 1 = channels.length ∧
      (removeChannel channels ch).result.Perm (channels.erase ch)) ∧
    (ch ∉ channels → removeChannel channels ch = ⟨channels, [], channels⟩) := by
  refine ⟨fun h => ?_, removeChannel_not_mem⟩
  obtain ⟨hc, -, hr⟩ := removeChannel_mem h
  have hlen := List.length_pos_of_mem h
  refine ⟨hc, removeChannel_backing h, by simp [removeChannel, List.indexOf_lt_length.mpr h], ?_, hr⟩
  rw [hr.length_eq, List.length_erase_of_mem h]
  omega

/-! ## `closeConsumers` -/

/-- One iteration of `closeConsumers`, after `Close` answered `reply`. Both arms of the
type switch do this. `strings.Compare` on the texts: an error that reads as
`ErrUnknownTopicOrPartition` resets `err` to nil. -/
def closeStep (err : Option GoError) : Option GoError → Option GoError
  | none => err
  | some e => if e.error = GoError.errUnknownTopicOrPartition.error then none else some e

/-- `closeConsumers`: the `Close` calls it makes, in order, and the error it returns. -/
def closeConsumers (reply : Consumer → Option GoError) (consumers : List Consumer) :
    List Consumer × Option GoError :=
  consumers.foldl (fun acc c => (acc.1 ++ [c], closeStep acc.2 (reply c))) ([], none)

theorem closeConsumers_foldl (reply : Consumer → Option GoError) (cs calls : List Consumer)
    (err : Option GoError) :
    cs.foldl (fun acc c => (acc.1 ++ [c], closeStep acc.2 (reply c))) (calls, err) =
      (calls ++ cs, (cs.map reply).foldl closeStep err) := by
  induction cs generalizing calls err with
  | nil => simp
  | cons c cs ih => simp [ih]

/-- `Close` is called exactly once on each consumer, in list order. -/
@[simp] theorem closeConsumers_calls (reply : Consumer → Option GoError) (cs : List Consumer) :
    (closeConsumers reply cs).1 = cs := by
  simp [closeConsumers, closeConsumers_foldl]

/-- A failed `Close` decides `err` whatever it was before. -/
theorem closeStep_some (err : Option GoError) (e : GoError) :
    closeStep err (some e) = closeStep none (some e) := rfl

theorem foldl_closeStep (err : Option GoError) (rs : List (Option GoError)) :
    rs.foldl closeStep err = ((rs.filterMap id).getLast?).elim err (fun e => closeStep none (some e)) := by
  induction rs generalizing err with
  | nil => rfl
  | cons r rs ih =>
      cases r with
      | none => simpa [closeStep] using ih err
      | some e =>
          rw [List.foldl_cons, ih, closeStep_some]
          cases h : (rs.filterMap id).getLast? <;> simp [h, List.getLast?_cons]

/-- The error `closeConsumers` returns is decided by the last `Close` that failed alone: nil
when its text is that of `ErrUnknownTopicOrPartition`, whatever failed before it, and that
error otherwise; nil when no `Close` failed. -/
theorem closeConsumers_err (reply : Consumer → Option GoError) (cs : List Consumer) :
    (closeConsumers reply cs).2 =
      match (cs.filterMap reply).getLast? with
      | none => none
      | some e => if e.error = GoError.errUnknownTopicOrPartition.error then none else some e := by
  rw [closeConsumers, closeConsumers_foldl, foldl_closeStep, List.filterMap_map, Function.id_comp]
  cases (cs.filterMap reply).getLast? <;> rfl

example : (closeConsumers (fun _ => some (.msg GoError.errUnknownTopicOrPartition.error))
    [.partition 0]).2 = none := by decide

theorem closeConsumers_drops_earlier_failure :
    closeConsumers
        (fun c => if c = .partition 0 then some (.msg "broker-down")
          else some .errUnknownTopicOrPartition)
        [.partition 0, .partition 1] = ([.partition 0, .partition 1], none) := by
  decide

end Voltha.Kafka
