import Mathlib.Data.List.Perm.Basic
import Reflex.Bytes

/-!
# The user validator

`validator.go`. A `Validator` is a Go map from 16-byte user IDs to users. `Add` stores a user
under the ID of its account, replacing the user stored there; `Get` looks an ID up; `Remove`
ranges over the map and deletes the first entry whose user has the email, in whatever order
`range` visits the entries (`order`, a permutation of the entries in every result that needs
it).

A map has one entry per key, and `Add` keys every user by its own account ID: both are fields
of `Validator`, so no other state can be built.

* `get_add`, `get_delete`: `Get` after `Add` and after a deletion;
* `remove_eq`: `Remove` succeeds exactly when a stored user has the email, and then deletes the
  key of the first such entry in the iteration order, and nothing else;
* `remove_shared_email_keeps_user`: `Add` does not keep emails unique, so `Remove` by email
  may delete another user and leave the ID of the one it was meant for valid;
* `remove_revokes_of_unique_email`: when no other stored user shares the email, a `Remove`
  that succeeds revokes the user's ID;
* `get_foldl_add`, `validator_run_gets_last_added`: over every run of `Add` and `Remove`, `Get`
  returns only the last user added with the ID.
-/

namespace Reflex

/-- `[16]byte`, a user ID as the validator keys it. -/
abbrev UserID := FixedBytes 16

/-- `MemoryAccount`, of which the validator reads the ID. -/
structure MemoryAccount where
  id : UserID
  deriving DecidableEq, Repr

/-- `protocol.MemoryUser`, of which the code reads the account and the email. -/
structure MemoryUser where
  account : MemoryAccount
  email : String
  deriving DecidableEq, Repr

/-- The entries of a map without the one under `id`. -/
def eraseKey (id : UserID) (users : List (UserID × MemoryUser)) : List (UserID × MemoryUser) :=
  users.filter (·.1 != id)

theorem lookup_eraseKey (id k : UserID) (users : List (UserID × MemoryUser)) :
    (eraseKey id users).lookup k = if k = id then none else users.lookup k := by
  induction users with
  | nil => simp [eraseKey]
  | cons e users ih =>
    obtain ⟨i, u⟩ := e
    by_cases hi : i = id
    · subst hi
      have : eraseKey i ((i, u) :: users) = eraseKey i users := by simp [eraseKey]
      rw [this, ih]
      by_cases hk : k = i
      · simp [hk]
      · simp [hk, List.lookup_cons, beq_false_of_ne hk]
    · have : eraseKey id ((i, u) :: users) = (i, u) :: eraseKey id users := by
        simp [eraseKey, hi]
      rw [this, List.lookup_cons, List.lookup_cons, ih]
      by_cases hk : k = i
      · subst hk; simp [hi]
      · simp [beq_false_of_ne hk]

theorem nodup_eraseKey (id : UserID) {users : List (UserID × MemoryUser)}
    (h : (users.map Prod.fst).Nodup) : ((eraseKey id users).map Prod.fst).Nodup :=
  (h.sublist (List.filter_sublist _ |>.map _))

theorem not_mem_eraseKey (id : UserID) (users : List (UserID × MemoryUser)) :
    id ∉ (eraseKey id users).map Prod.fst := by
  simp [eraseKey]

/-- `Validator`: the entries of its map of users. -/
structure Validator where
  users : List (UserID × MemoryUser)
  /-- A map has one entry per key. -/
  nodup : (users.map Prod.fst).Nodup
  /-- `Add` keys a user by its account's ID. -/
  keyed : ∀ e ∈ users, e.2.account.id = e.1

/-- `NewValidator`. -/
def newValidator : Validator := ⟨[], List.nodup_nil, fun _ h => absurd h (List.not_mem_nil _)⟩

/-- `delete(v.users, id)`. -/
def Validator.delete (v : Validator) (id : UserID) : Validator :=
  ⟨eraseKey id v.users, nodup_eraseKey id v.nodup,
    fun e he => v.keyed e (List.mem_of_mem_filter he)⟩

/-- `Validator.Add`: `v.users[id] = u` under the account's ID; the error is always `nil`. Its
    type assertion `u.Account.(*MemoryAccount)` is taken to succeed: a `MemoryUser` here holds a
    Reflex account. -/
def Validator.add (v : Validator) (u : MemoryUser) : Validator × Option GoError :=
  (⟨(u.account.id, u) :: eraseKey u.account.id v.users,
    List.nodup_cons.2 ⟨not_mem_eraseKey _ _, nodup_eraseKey _ v.nodup⟩,
    fun e he => (List.mem_cons.1 he).elim (fun h => h ▸ rfl)
      fun h => v.keyed e (List.mem_of_mem_filter h)⟩, none)

/-- `Validator.Get`. -/
def Validator.get (v : Validator) (userID : UserID) : Except GoError MemoryUser :=
  match v.users.lookup userID with
  | some user => .ok user
  | none => .error (.err "user not found")

/-- `Validator.Remove`, with `order` the entries in the order `range` visits them. -/
def Validator.remove (v : Validator) (email : String) (order : List (UserID × MemoryUser)) :
    Validator × Option GoError :=
  match order.find? (·.2.email == email) with
  | some (id, _) => (v.delete id, none)
  | none => (v, some (.err "user not found"))

/-! ## Lookups -/

theorem get_delete (v : Validator) (id k : UserID) :
    (v.delete id).get k = if k = id then .error (.err "user not found") else v.get k := by
  unfold Validator.get Validator.delete
  rw [lookup_eraseKey]
  split_ifs <;> rfl

theorem get_add (v : Validator) (u : MemoryUser) (k : UserID) :
    (v.add u).1.get k = if k = u.account.id then .ok u else v.get k := by
  unfold Validator.get Validator.add
  by_cases hk : k = u.account.id
  · subst hk; simp
  · simp only [List.lookup_cons, beq_false_of_ne hk, lookup_eraseKey, if_neg hk]

/-- The run lemma of `Add`: after the users `us` are added in order, `Get` of an ID returns the
    last of them with that ID, or else what it returned before. -/
theorem get_foldl_add (us : List MemoryUser) (v : Validator) (id : UserID) :
    (us.foldl (fun v u => (v.add u).1) v).get id =
      match (us.filter fun u => u.account.id = id).getLast? with
      | some u => .ok u
      | none => v.get id := by
  induction us generalizing v with
  | nil => rfl
  | cons u us ih =>
    rw [List.foldl_cons, ih, get_add]
    by_cases hu : u.account.id = id
    · rw [List.filter_cons_of_pos (by simpa using hu), List.getLast?_cons, if_pos hu.symm]
      cases (us.filter fun u => u.account.id = id).getLast? <;> rfl
    · rw [List.filter_cons_of_neg (by simpa using hu), if_neg (Ne.symm hu)]

/-! ## Removal -/

/-- `Remove` by `email`, its entries visited in an order `order` of the map: it fails when no
    stored user has the email, and otherwise deletes the key of the first entry in that order
    whose user has it. -/
theorem remove_eq (v : Validator) (email : String) {order : List (UserID × MemoryUser)}
    (horder : order.Perm v.users) :
    ((∀ e ∈ v.users, e.2.email ≠ email) ∧
        v.remove email order = (v, some (.err "user not found"))) ∨
      ∃ e ∈ v.users, e.2.email = email ∧ order.find? (·.2.email == email) = some e ∧
        v.remove email order = (v.delete e.1, none) := by
  unfold Validator.remove
  split
  · rename_i id w hf
    have hmem := horder.mem_iff.1 (List.mem_of_find?_eq_some hf)
    exact .inr ⟨(id, w), hmem, by simpa using List.find?_some hf, hf, rfl⟩
  · rename_i hf
    refine .inl ⟨fun e he h => ?_, rfl⟩
    have := List.find?_eq_none.1 hf e (horder.mem_iff.2 he)
    simp [h] at this

/-- `Add` does not keep emails unique. Two users with different IDs and the same email are
    added; the `range` of `Remove` visits the second one first and deletes it, returning `nil`,
    and the ID of the first one is still valid. -/
theorem remove_shared_email_keeps_user :
    [((⟨List.replicate 16 2, rfl⟩ : UserID), (⟨⟨⟨List.replicate 16 2, rfl⟩⟩, "a"⟩ : MemoryUser)),
        (⟨List.replicate 16 1, rfl⟩, ⟨⟨⟨List.replicate 16 1, rfl⟩⟩, "a"⟩)].Perm
      ((newValidator.add ⟨⟨⟨List.replicate 16 1, rfl⟩⟩, "a"⟩).1.add
        ⟨⟨⟨List.replicate 16 2, rfl⟩⟩, "a"⟩).1.users ∧
    (((newValidator.add ⟨⟨⟨List.replicate 16 1, rfl⟩⟩, "a"⟩).1.add
        ⟨⟨⟨List.replicate 16 2, rfl⟩⟩, "a"⟩).1.remove "a"
        [(⟨List.replicate 16 2, rfl⟩, ⟨⟨⟨List.replicate 16 2, rfl⟩⟩, "a"⟩),
          (⟨List.replicate 16 1, rfl⟩, ⟨⟨⟨List.replicate 16 1, rfl⟩⟩, "a"⟩)]).2 = none ∧
    (((newValidator.add ⟨⟨⟨List.replicate 16 1, rfl⟩⟩, "a"⟩).1.add
        ⟨⟨⟨List.replicate 16 2, rfl⟩⟩, "a"⟩).1.remove "a"
        [(⟨List.replicate 16 2, rfl⟩, ⟨⟨⟨List.replicate 16 2, rfl⟩⟩, "a"⟩),
          (⟨List.replicate 16 1, rfl⟩, ⟨⟨⟨List.replicate 16 1, rfl⟩⟩, "a"⟩)]).1.get
      ⟨List.replicate 16 1, rfl⟩ = .ok ⟨⟨⟨List.replicate 16 1, rfl⟩⟩, "a"⟩ :=
  ⟨List.Perm.refl _, rfl, rfl⟩

/-- If no stored user other than `u` (by its ID) has `u`'s email, then a `Remove` of that email
    that returns `nil`, whatever order `range` takes, revokes `u`'s ID. -/
theorem remove_revokes_of_unique_email (v : Validator) (u : MemoryUser)
    {order : List (UserID × MemoryUser)} (horder : order.Perm v.users)
    (hunique : ∀ e ∈ v.users, e.2.email = u.email → e.1 = u.account.id)
    (hnil : (v.remove u.email order).2 = none) :
    (v.remove u.email order).1.get u.account.id = .error (.err "user not found") := by
  rcases remove_eq v u.email horder with ⟨-, h⟩ | ⟨e, he, hemail, -, h⟩
  · rw [h] at hnil; cases hnil
  · rw [h, get_delete, if_pos (hunique e he hemail).symm]

/-- One user, removed by its email. -/
theorem remove_revokes_single_user :
    (newValidator.add ⟨⟨⟨List.replicate 16 1, rfl⟩⟩, "a"⟩).1.users.Perm
        (newValidator.add ⟨⟨⟨List.replicate 16 1, rfl⟩⟩, "a"⟩).1.users ∧
      (∀ e ∈ (newValidator.add ⟨⟨⟨List.replicate 16 1, rfl⟩⟩, "a"⟩).1.users,
        e.2.email = "a" → e.1 = ⟨List.replicate 16 1, rfl⟩) ∧
      ((newValidator.add ⟨⟨⟨List.replicate 16 1, rfl⟩⟩, "a"⟩).1.remove "a"
        (newValidator.add ⟨⟨⟨List.replicate 16 1, rfl⟩⟩, "a"⟩).1.users).2 = none ∧
      ((newValidator.add ⟨⟨⟨List.replicate 16 1, rfl⟩⟩, "a"⟩).1.remove "a"
        (newValidator.add ⟨⟨⟨List.replicate 16 1, rfl⟩⟩, "a"⟩).1.users).1.get
        ⟨List.replicate 16 1, rfl⟩ = .error (.err "user not found") :=
  have hunique : ∀ e ∈ (newValidator.add ⟨⟨⟨List.replicate 16 1, rfl⟩⟩, "a"⟩).1.users,
      e.2.email = "a" → e.1 = ⟨List.replicate 16 1, rfl⟩ := by decide
  ⟨List.Perm.refl _, hunique, rfl,
    remove_revokes_of_unique_email _ ⟨⟨⟨List.replicate 16 1, rfl⟩⟩, "a"⟩ (List.Perm.refl _)
      hunique rfl⟩

/-! ## Runs of `Add` and `Remove` -/

/-- A call on the validator: `Add`, or `Remove` with the order in which `range` visits the
    entries, whatever it is. -/
inductive ValidatorCall
  | add (u : MemoryUser)
  | remove (email : String) (order : List (UserID × MemoryUser))

/-- The validator after a call. -/
def Validator.call (v : Validator) : ValidatorCall → Validator
  | .add u => (v.add u).1
  | .remove email order => (v.remove email order).1

/-- The users a history of calls added, in order. -/
def ValidatorCall.added : List ValidatorCall → List MemoryUser
  | [] => []
  | .add u :: calls => u :: added calls
  | .remove _ _ :: calls => added calls

theorem ValidatorCall.added_append_add (calls : List ValidatorCall) (u : MemoryUser) :
    added (calls ++ [.add u]) = added calls ++ [u] := by
  induction calls with
  | nil => rfl
  | cons c calls ih => cases c <;> simp [added, ih]

theorem ValidatorCall.added_append_remove (calls : List ValidatorCall) (email : String)
    (order : List (UserID × MemoryUser)) :
    added (calls ++ [.remove email order]) = added calls := by
  induction calls with
  | nil => rfl
  | cons c calls ih => cases c <;> simp [added, ih]

/-- The invariant of a validator after the calls `calls`: `Get` of an ID returns only the last
    user the calls added with that ID. -/
def GetsLastAdded (v : Validator) (calls : List ValidatorCall) : Prop :=
  ∀ id u, v.get id = .ok u →
    ((ValidatorCall.added calls).filter fun u => u.account.id = id).getLast? = some u

/-- `Remove` only deletes: it leaves the validator, or deletes one key. -/
theorem remove_fst_cases (v : Validator) (email : String) (order : List (UserID × MemoryUser)) :
    (v.remove email order).1 = v ∨ ∃ id, (v.remove email order).1 = v.delete id := by
  unfold Validator.remove
  split
  · exact .inr ⟨_, rfl⟩
  · exact .inl rfl

/-- One call keeps the invariant. -/
theorem GetsLastAdded.call {v : Validator} {calls : List ValidatorCall}
    (h : GetsLastAdded v calls) (c : ValidatorCall) : GetsLastAdded (v.call c) (calls ++ [c]) := by
  intro id u hget
  cases c with
  | add w =>
    rw [ValidatorCall.added_append_add, List.filter_append]
    rw [Validator.call, get_add] at hget
    by_cases hid : id = w.account.id
    · rw [if_pos hid] at hget
      cases hget
      simp [hid]
    · rw [if_neg hid] at hget
      rw [List.filter_singleton, decide_eq_false (Ne.symm hid)]
      simpa using h id u hget
  | remove email order =>
    rw [ValidatorCall.added_append_remove]
    rw [Validator.call] at hget
    rcases remove_fst_cases v email order with hv | ⟨k, hv⟩ <;> rw [hv] at hget
    · exact h id u hget
    · rw [get_delete] at hget
      split_ifs at hget
      exact h id u hget

/-- A run of calls keeps the invariant. -/
theorem GetsLastAdded.foldl (calls : List ValidatorCall) :
    ∀ {v : Validator} {done : List ValidatorCall}, GetsLastAdded v done →
      GetsLastAdded (calls.foldl Validator.call v) (done ++ calls) := by
  induction calls with
  | nil => intro v done h; simpa using h
  | cons c calls ih =>
    intro v done h
    simpa using ih (h.call c)

/-- For every run of `Add` and `Remove` calls from `NewValidator`, whatever order `range` takes
    in each `Remove`, a user that `Get` of an ID returns is one the run added under that ID, and
    the last one it added with that ID: `Get` never returns a user a later `Add` replaced. -/
theorem validator_run_gets_last_added (calls : List ValidatorCall) (id : UserID)
    (u : MemoryUser) (h : (calls.foldl Validator.call newValidator).get id = .ok u) :
    u.account.id = id ∧
      ((ValidatorCall.added calls).filter fun u => u.account.id = id).getLast? = some u := by
  have hlast := GetsLastAdded.foldl calls
    (show GetsLastAdded newValidator [] from fun _ _ h => nomatch h) id u h
  rw [List.nil_append] at hlast
  exact ⟨of_decide_eq_true (List.mem_filter.1 (List.mem_of_getLast?_eq_some hlast)).2, hlast⟩


/-- Two users with one ID, added in turn: `Get` returns the second. -/
theorem validator_run_gets_second_of_two :
    (([.add ⟨⟨⟨List.replicate 16 1, rfl⟩⟩, "a"⟩, .add ⟨⟨⟨List.replicate 16 1, rfl⟩⟩, "b"⟩] :
        List ValidatorCall).foldl Validator.call newValidator).get ⟨List.replicate 16 1, rfl⟩ =
      .ok ⟨⟨⟨List.replicate 16 1, rfl⟩⟩, "b"⟩ ∧
    (⟨⟨⟨List.replicate 16 1, rfl⟩⟩, "b"⟩ : MemoryUser).account.id = ⟨List.replicate 16 1, rfl⟩ ∧
    ((ValidatorCall.added [.add ⟨⟨⟨List.replicate 16 1, rfl⟩⟩, "a"⟩,
        .add ⟨⟨⟨List.replicate 16 1, rfl⟩⟩, "b"⟩]).filter
      fun u => u.account.id = ⟨List.replicate 16 1, rfl⟩).getLast? =
      some ⟨⟨⟨List.replicate 16 1, rfl⟩⟩, "b"⟩ :=
  ⟨rfl, validator_run_gets_last_added _ _ _ rfl⟩

end Reflex
