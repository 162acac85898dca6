import Mathlib.Data.Finset.Insert
import Mathlib.Data.List.Basic

/-!
# A key-value server with lists and sets

The part of Redis that a client with two kinds of keys needs: lists with `LPUSH`, `LTRIM` and
`LRANGE`, sets with `SADD` and `SISMEMBER`, and `MULTI`/`EXEC`.

## The model

A `Store` maps keys to values; a missing key reads as the empty list and the empty set, and a list
that becomes empty is removed. A command for the wrong kind of value fails and changes nothing;
inside `MULTI`/`EXEC` the commands after a failing one still run. Indices count from the end when
negative and are cut to the list.

## What is proved

* `exec_of_not_mem` — a transaction changes only the keys its commands name.
* `range_zero` — `LRANGE 0 x` and `LTRIM 0 x` take a prefix, whatever `x` is.
* `execPushTrimAdd` — what a push, a trim to a prefix and an addition to another key come to.
-/

namespace PumpSwapBot.Library.KeyValue

/-- What a key holds. -/
inductive Value where
  | list (items : List String)
  | set (members : Finset String)

/-- A server's contents. -/
abbrev Store := String → Option Value

/-- The error of a command for the other kind of value. -/
def wrongType : String := "WRONGTYPE: Operation against a key holding the wrong kind of value"

/-- The contents of the key, which must not be a set. -/
def Store.asList (s : Store) (key : String) : Except String (List String) :=
  match s key with
  | none => .ok []
  | some (.list items) => .ok items
  | some (.set _) => .error wrongType

/-- The contents of the key, which must not be a list. -/
def Store.asSet (s : Store) (key : String) : Except String (Finset String) :=
  match s key with
  | none => .ok ∅
  | some (.set members) => .ok members
  | some (.list _) => .error wrongType

/-- Write a list; an empty one is no key at all. -/
def Store.putList (s : Store) (key : String) (items : List String) : Store :=
  Function.update s key (if items = [] then none else some (.list items))

/-- Write a set that is not empty. -/
def Store.putSet (s : Store) (key : String) (members : Finset String) : Store :=
  Function.update s key (some (.set members))

/-- An index from the front. -/
def fromFront (length : ℕ) (i : ℤ) : ℤ := if i < 0 then length + i else i

/-- The items from `start` to `stop`, both counted from the end if negative and cut to the list. -/
def range {α : Type} (items : List α) (start stop : ℤ) : List α :=
  let first := max 0 (fromFront items.length start)
  let last := min (fromFront items.length stop) (items.length - 1)
  if first > last then [] else (items.drop first.toNat).take (last - first + 1).toNat

/-- The commands that change a store. -/
inductive Command where
  | lpush (key item : String)
  | ltrim (key : String) (start stop : ℤ)
  | sadd (key member : String)

/-- The key a command names. -/
def Command.key : Command → String
  | .lpush key _ => key
  | .ltrim key _ _ => key
  | .sadd key _ => key

/-- Run a command. -/
def Command.run (s : Store) : Command → Except String Store
  | .lpush key item => (s.asList key).map fun items => s.putList key (item :: items)
  | .ltrim key start stop => (s.asList key).map fun items => s.putList key (range items start stop)
  | .sadd key member => (s.asSet key).map fun members => s.putSet key (insert member members)

/-- Run a transaction: a command that fails is passed over. -/
def exec (s : Store) : List Command → Store
  | [] => s
  | c :: cs => exec (match c.run s with
    | .ok s' => s'
    | .error _ => s) cs

/-- Whether a set has a member. -/
def sismember (s : Store) (key member : String) : Except String Bool :=
  (s.asSet key).map fun members => member ∈ members

/-- A part of a list. -/
def lrange (s : Store) (key : String) (start stop : ℤ) : Except String (List String) :=
  (s.asList key).map fun items => range items start stop

/-! ### Reading what was written -/

@[simp] theorem asList_putList (s : Store) (key : String) (items : List String) :
    (s.putList key items).asList key = .ok items := by
  simp only [Store.asList, Store.putList]
  rw [Function.update_self]
  by_cases h : items = [] <;> simp [h]

@[simp] theorem asSet_putSet (s : Store) (key : String) (members : Finset String) :
    (s.putSet key members).asSet key = .ok members := by
  simp only [Store.asSet, Store.putSet]
  rw [Function.update_self]

theorem putList_of_ne {s : Store} {key k : String} (h : k ≠ key) (items : List String) :
    s.putList key items k = s k := Function.update_of_ne h _ _

theorem putSet_of_ne {s : Store} {key k : String} (h : k ≠ key) (members : Finset String) :
    s.putSet key members k = s k := Function.update_of_ne h _ _

theorem asList_congr {s t : Store} {key : String} (h : s key = t key) : s.asList key = t.asList key := by
  simp only [Store.asList]
  rw [h]

theorem asSet_congr {s t : Store} {key : String} (h : s key = t key) : s.asSet key = t.asSet key := by
  simp only [Store.asSet]
  rw [h]

/-! ### Transactions -/

theorem run_of_ne {s s' : Store} {c : Command} {k : String} (h : c.run s = .ok s') (hk : k ≠ c.key) :
    s' k = s k := by
  cases c with
  | lpush key item =>
    rcases hl : s.asList key with e | items <;> simp only [Command.run, hl, Except.map] at h <;> cases h
    exact putList_of_ne hk _
  | ltrim key start stop =>
    rcases hl : s.asList key with e | items <;> simp only [Command.run, hl, Except.map] at h <;> cases h
    exact putList_of_ne hk _
  | sadd key member =>
    rcases hl : s.asSet key with e | members <;> simp only [Command.run, hl, Except.map] at h <;> cases h
    exact putSet_of_ne hk _

/-- A transaction changes only the keys its commands name. -/
theorem exec_of_not_mem {cs : List Command} {k : String} (hk : k ∉ cs.map Command.key) (s : Store) :
    exec s cs k = s k := by
  induction cs generalizing s with
  | nil => rfl
  | cons c cs ih =>
    simp only [List.map_cons, List.mem_cons, not_or] at hk
    rw [exec, ih hk.2]
    rcases h : c.run s with _ | s'
    · rfl
    · exact run_of_ne h hk.1

section Run

variable {s : Store} {key : String} {items : List String} {members : Finset String}

theorem run_lpush (h : s.asList key = .ok items) (item : String) :
    (Command.lpush key item).run s = .ok (s.putList key (item :: items)) := by
  simp [Command.run, h, Except.map]

theorem run_ltrim (h : s.asList key = .ok items) (start stop : ℤ) :
    (Command.ltrim key start stop).run s = .ok (s.putList key (range items start stop)) := by
  simp [Command.run, h, Except.map]

theorem run_sadd (h : s.asSet key = .ok members) (member : String) :
    (Command.sadd key member).run s = .ok (s.putSet key (insert member members)) := by
  simp [Command.run, h, Except.map]

theorem exec_lpush (h : s.asList key = .ok items) (item : String) :
    exec s [.lpush key item] = s.putList key (item :: items) := by
  simp [exec, run_lpush h]

theorem exec_ltrim (h : s.asList key = .ok items) (start stop : ℤ) :
    exec s [.ltrim key start stop] = s.putList key (range items start stop) := by
  simp [exec, run_ltrim h]

theorem exec_sadd (h : s.asSet key = .ok members) (member : String) :
    exec s [.sadd key member] = s.putSet key (insert member members) := by
  simp [exec, run_sadd h]

end Run

/-! ### Prefixes -/

/-- From the front on, a range is the items up to the other end. -/
theorem range_zero_eq {α : Type} (items : List α) (stop : ℤ) :
    range items 0 stop = items.take (fromFront items.length stop + 1).toNat := by
  unfold range
  dsimp only
  have hfirst : max 0 (fromFront items.length 0) = 0 := by simp [fromFront]
  rw [hfirst]
  split_ifs with hempty
  · by_cases hlength : items.length = 0
    · rw [List.eq_nil_of_length_eq_zero hlength, List.take_nil]
    · have hstop : (fromFront items.length stop + 1).toNat = 0 := by omega
      rw [hstop, List.take_zero]
  · rw [Int.toNat_zero, List.drop_zero]
    by_cases hinside : fromFront items.length stop ≤ items.length - 1
    · rw [min_eq_left hinside, Int.sub_zero]
    · rw [min_eq_right (by omega), List.take_of_length_le (by omega), List.take_of_length_le (by omega)]

/-- From the front on, whatever the other end is, a range is a prefix. -/
theorem range_zero {α : Type} (items : List α) (stop : ℤ) : ∃ k, range items 0 stop = items.take k :=
  ⟨_, range_zero_eq items stop⟩

/-- What a push, a trim that keeps a prefix and an addition to another key leave of a list. Where there is none, they
leave it so. -/
theorem asList_execPushTrimAdd {s : Store} {key other : String} (item member : String) (stop : ℤ)
    (hkeys : key ≠ other) :
    (exec s [.lpush key item, .ltrim key 0 stop, .sadd other member]).asList key =
      (s.asList key).map fun items => range (item :: items) 0 stop := by
  have hadd : ∀ t : Store, (exec t [.sadd other member]).asList key = t.asList key :=
    fun t => asList_congr (exec_of_not_mem (by simpa [Command.key] using hkeys) t)
  show (exec (exec (exec s [.lpush key item]) [.ltrim key 0 stop]) [.sadd other member]).asList key = _
  rw [hadd]
  rcases hitems : s.asList key with e | items
  · have hpush : exec s [.lpush key item] = s := by simp [exec, Command.run, hitems, Except.map]
    have htrim : exec s [.ltrim key 0 stop] = s := by simp [exec, Command.run, hitems, Except.map]
    rw [hpush, htrim, hitems]
    rfl
  · rw [exec_lpush hitems, exec_ltrim (asList_putList _ _ _), asList_putList]
    rfl

/-- A push, a trim that keeps a prefix and an addition to another key. -/
theorem execPushTrimAdd {s : Store} {key other : String} {items : List String} {members : Finset String}
    (item member : String) (stop : ℤ) (hkeys : key ≠ other) (hitems : s.asList key = .ok items)
    (hmembers : s.asSet other = .ok members) :
    (exec s [.lpush key item, .ltrim key 0 stop, .sadd other member]).asList key =
        .ok (range (item :: items) 0 stop) ∧
      (exec s [.lpush key item, .ltrim key 0 stop, .sadd other member]).asSet other =
        .ok (insert member members) := by
  refine ⟨by rw [asList_execPushTrimAdd item member stop hkeys, hitems]; rfl, ?_⟩
  have hframe : exec s [.lpush key item, .ltrim key 0 stop] other = s other :=
    exec_of_not_mem (by simp [Command.key, hkeys.symm]) s
  have hset : (exec s [.lpush key item, .ltrim key 0 stop]).asSet other = .ok members := by
    rw [asSet_congr hframe, hmembers]
  show (exec (exec s [.lpush key item, .ltrim key 0 stop]) [.sadd other member]).asSet other = _
  rw [exec_sadd hset, asSet_putSet]

end PumpSwapBot.Library.KeyValue
