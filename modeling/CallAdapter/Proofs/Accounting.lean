import Mathlib.Data.Finset.Card
import CallAdapter.Proofs.Saturation

/-!
# What resolvers count

A resolver counts the zero values that it constructs. The main theorem, `resolver_accounting`, says
what this number is after any history of operations: the number of different value types that the
resolver has been asked for, which is also how many zero values it keeps. This holds before and after
every single request, whether it is made directly, for a default, for a local, or in a call inside a
call; and the answer is the zero value of the type.

Which requests a task makes is not seen from the store, since a request that is answered from the cache
leaves no trace there. It is said by `Task.Requests`, which follows a run from one request to the next.
-/

namespace CallAdapter

open CallAdapter.Task

/-! ### Zero values -/

/-- The value is what a slot of the type starts with: a record has one value for each of its fields, in
order, a wrapper is empty, and a reference is null. -/
inductive Value.IsZeroOf : Value → ValueType → Prop
  | unit : IsZeroOf .unit .unit
  | bool : IsZeroOf (.bool false) .bool
  | u8 : IsZeroOf (.u8 0) .u8
  | i16 : IsZeroOf (.i16 0) .i16
  | i32 : IsZeroOf (.i32 0) .i32
  | i64 : IsZeroOf (.i64 0) .i64
  | f32 : IsZeroOf (.f32 .zero) .f32
  | f64 : IsZeroOf (.f64 .zero) .f64
  | nullable (t : ValueType) : IsZeroOf .empty (.nullable t)
  | struct {name : String} {fields : List (String × ValueType)} {values : List Value} :
      List.Forall₂ (fun v field => IsZeroOf v field.2) values fields →
        IsZeroOf (.struct name fields values) (.struct name fields)
  | reference {t : ValueType} : t.isValueType = false → IsZeroOf .null t

mutual

theorem ValueType.isZeroOf_initial : ∀ t : ValueType, t.initial.IsZeroOf t
  | .unit => .unit
  | .bool => .bool
  | .u8 => .u8
  | .i16 => .i16
  | .i32 => .i32
  | .i64 => .i64
  | .f32 => .f32
  | .f64 => .f64
  | .nullable t => .nullable t
  | .struct _ fields => .struct (ValueType.isZeroOf_initialFields fields)
  | .str | .object | .reference _ => .reference rfl

theorem ValueType.isZeroOf_initialFields : ∀ fields : List (String × ValueType),
    List.Forall₂ (fun v field => Value.IsZeroOf v field.2) (ValueType.initialFields fields) fields
  | [] => .nil
  | (_, t) :: fields => .cons (isZeroOf_initial t) (isZeroOf_initialFields fields)

end

theorem ValueType.isInstance_initial {t : ValueType} (h : t.isValueType = true) :
    t.initial.isInstance t = true := by
  cases t with
  | str | object | reference => cases h
  | struct name fields => simp [initial, Value.isInstance]
  | _ => rfl

/-! ### Requests -/

/-- A request for a zero value, on a store. -/
structure Query where
  resolver : ResolverId
  type : ValueType
  store : Store

namespace Query

def answer (q : Query) : Option Value := (q.store.zero? q.resolver q.type).1

def after (q : Query) : Store := (q.store.zero? q.resolver q.type).2

/-- A reference type has no zero value, and asking for one changes nothing. -/
theorem of_reference {q : Query} (h : q.type.isValueType = false) :
    q.answer = none ∧ q.after = q.store := by
  simp [answer, after, Store.zero?, h]

/-- The zero value of a value type is an instance of it. -/
theorem of_value {q : Query} (h : q.type.isValueType = true) :
    ∃ z, q.answer = some z ∧ z.isInstance q.type = true ∧ z.IsZeroOf q.type := by
  refine ⟨q.type.initial, ?_, ValueType.isInstance_initial h, q.type.isZeroOf_initial⟩
  rw [answer, Store.zero?_fst, ValueType.zero?, if_pos h]

end Query

/-- A run of the task that begins on the store makes these requests, one after the other, each on the
store that it finds. -/
inductive Task.Requests : {ε α : Type} → Task ε α → Store → List Query → Prop
  | ofExcept {ε α : Type} (x : Except ε α) (s : Store) : Requests (Task.ofExcept x) s []
  | log {ε : Type} (e : Event) (s : Store) :
      Requests (Task.update (Store.log · e) : Task ε Unit) s []
  | cell (id : ProcedureId) (o : Outline) (s : Store) : Requests (Task.cell id o) s []
  | zero? {ε : Type} (r : ResolverId) (t : ValueType) (s : Store) :
      Requests (Task.zero? r t : Task ε (Option Value)) s [⟨r, t, s⟩]
  | fail {ε α β : Type} {x : Task ε α} {f : α → Task ε β} {s s' : Store} {e : ε}
      {qs : List Query} :
      Requests x s qs → x.runOn s = (.error e, s') → Requests (x >>= f) s qs
  | bind {ε α β : Type} {x : Task ε α} {f : α → Task ε β} {s s' : Store} {a : α}
      {qs qs' : List Query} :
      Requests x s qs → x.runOn s = (.ok a, s') → Requests (f a) s' qs' →
        Requests (x >>= f) s (qs ++ qs')

namespace Operation

def Requests (s : Store) (qs : List Query) : Operation → Prop
  | .zeroValue resolver type => qs = [⟨resolver, type, s⟩]
  | .adapt header supplied target filling =>
    (CallAdapter.adapt header supplied target filling).Requests s qs
  | .bindAt header target bindings start =>
    (CallAdapter.bindAt header target bindings start).Requests s qs
  | .listing procedure => procedure.listing.Requests s qs
  | .invoke procedure args => (procedure.invoke args).Requests s qs

inductive AllRequests : Store → List Operation → List Query → Prop
  | nil (s : Store) : AllRequests s [] []
  | cons {s : Store} {o : Operation} {history : List Operation} {qs qs' : List Query} :
      o.Requests s qs → AllRequests (o.perform s).2 history qs' →
        AllRequests s (o :: history) (qs ++ qs')

end Operation

/-! ### Every run makes some requests -/

namespace Task

variable {ε α β : Type} {x : Task ε α}

/-- On every store there are requests that the task makes. -/
def Traced (x : Task ε α) : Prop := ∀ s, ∃ qs, x.Requests s qs

theorem traced_ofExcept (x : Except ε α) : (ofExcept x).Traced := fun s => ⟨[], .ofExcept x s⟩

/-- What comes second has to be traced for the results that the first task can have. -/
theorem Traced.bind {f : α → Task ε β} (hx : x.Traced)
    (hf : ∀ a s, (x.runOn s).1 = .ok a → (f a).Traced) : (x >>= f).Traced := by
  intro s
  obtain ⟨qs, hqs⟩ := hx s
  rcases hrun : x.runOn s with ⟨e | a, s'⟩
  · exact ⟨qs, .fail hqs hrun⟩
  · obtain ⟨qs', hqs'⟩ := hf a s (congrArg Prod.fst hrun) s'
    exact ⟨qs ++ qs', .bind hqs hrun hqs'⟩

theorem Decodes.traced {x : Run α} (h : x.Decodes) : x.Traced := by
  obtain ⟨id, b⟩ := h
  exact Traced.bind (fun s => ⟨[], .cell id b.outline s⟩) fun _ _ _ => traced_ofExcept _

theorem Acts.traced {P : ResolverId → ValueType → Prop} {C : {α : Type} → Task ε α → Prop}
    (h : x.Acts P C) (hC : ∀ {α : Type} (y : Task ε α), C y → y.Traced) : x.Traced := by
  induction h with
  | ofExcept x => exact traced_ofExcept x
  | log _ => exact fun s => ⟨[], .log _ s⟩
  | zero? _ => exact fun s => ⟨_, .zero? _ _ s⟩
  | other hother => exact hC _ hother
  | bind _ _ hx hf => exact hx.bind hf

end Task

namespace Operation

theorem exists_requests (o : Operation) (s : Store) : ∃ qs, o.Requests s qs := by
  cases o with
  | zeroValue resolver type => exact ⟨_, rfl⟩
  | adapt header supplied target filling =>
    exact (asks_adapt header supplied target filling).traced (fun _ hnone => hnone.elim) s
  | bindAt header target bindings start =>
    exact (asks_bindAt header target bindings start).traced (fun _ hnone => hnone.elim) s
  | listing procedure => exact procedure.acts_listing.traced (fun _ h => h.traced) s
  | invoke procedure args => exact (procedure.acts_invoke args).traced (fun _ h => h.traced) s

theorem exists_allRequests (s : Store) (history : List Operation) :
    ∃ qs, AllRequests s history qs := by
  induction history generalizing s with
  | nil => exact ⟨[], .nil s⟩
  | cons o history ih =>
    obtain ⟨qs, hqs⟩ := o.exists_requests s
    obtain ⟨qs', hqs'⟩ := ih (o.perform s).2
    exact ⟨qs ++ qs', .cons hqs hqs'⟩

end Operation

/-! ### Only requests change caches -/

/-- From one store to the other, the caches change by these requests only. -/
abbrev Store.Leads : Store → List Query → Store → Prop :=
  Store.Chain Store.SameCaches Query.store Query.after

theorem Task.Requests.leads {ε α : Type} {x : Task ε α} {s : Store} {qs : List Query}
    (h : x.Requests s qs) : s.Leads qs (x.runOn s).2 := by
  induction h with
  | ofExcept x s => exact .nil fun _ => rfl
  | log e s => exact .nil fun _ => rfl
  | cell id o s => exact .nil (s.sameCaches_fillCell id o)
  | zero? r t s => exact .cons (fun _ => rfl) (.nil fun _ => rfl)
  | fail _ hrun ih =>
    rw [runOn_bind, hrun]
    rwa [hrun] at ih
  | bind _ hrun _ ih ih' =>
    rw [runOn_bind, hrun]
    rw [hrun] at ih
    exact ih.append Store.SameCaches.trans ih'

namespace Operation

theorem Requests.leads {o : Operation} {s : Store} {qs : List Query} (h : o.Requests s qs) :
    s.Leads qs (o.perform s).2 := by
  cases o with
  | zeroValue resolver type =>
    obtain rfl : qs = [⟨resolver, type, s⟩] := h
    exact .cons (fun _ => rfl) (.nil fun _ => rfl)
  | adapt | bindAt | listing | invoke => exact Task.Requests.leads h

theorem AllRequests.leads {s : Store} {history : List Operation} {qs : List Query}
    (h : AllRequests s history qs) : s.Leads qs (after s history) := by
  induction h with
  | nil s => exact .nil fun _ => rfl
  | cons hfirst _ ih => exact hfirst.leads.append Store.SameCaches.trans ih

end Operation

/-! ### Counting -/

/-- The value types among those that a resolver is asked for. -/
def requestedTypes (r : ResolverId) (qs : List Query) : Finset ValueType :=
  ((qs.filter (·.resolver = r)).map Query.type).toFinset.filter (·.isValueType = true)

/-- Only a request for a value type counts, and only for the resolver that it is made to. -/
theorem requestedTypes_concat (r : ResolverId) (qs : List Query) (q : Query) :
    requestedTypes r (qs ++ [q]) =
      if q.resolver = r ∧ q.type.isValueType = true then insert q.type (requestedTypes r qs)
      else requestedTypes r qs := by
  ext t
  by_cases hr : q.resolver = r <;> by_cases ht : q.type.isValueType = true <;>
    simp [requestedTypes, hr, ht] <;> grind

/-- The cache keeps the zero values of these types, and has constructed each of them once. -/
structure ZeroCache.Accounts (c : ZeroCache) (types : Finset ValueType) : Prop where
  constructions_eq : c.constructions = c.size
  nodup : c.types.Nodup
  mem_iff : ∀ t, t ∈ c.types ↔ t ∈ types

namespace ZeroCache.Accounts

variable {c : ZeroCache} {types : Finset ValueType} {t : ValueType}

theorem empty : ZeroCache.empty.Accounts ∅ where
  constructions_eq := rfl
  nodup := List.nodup_nil
  mem_iff t := by simp [ZeroCache.empty, ZeroCache.types]

theorem size_eq (h : c.Accounts types) : c.size = types.card := by
  have htypes : types = c.types.toFinset := by
    ext t
    rw [List.mem_toFinset, h.mem_iff]
  rw [htypes, List.toFinset_card_of_nodup h.nodup, ZeroCache.types, List.length_map, size]

theorem construct (h : c.Accounts types) (ht : t ∉ c.types) :
    (c.construct t).Accounts (insert t types) where
  constructions_eq := by
    have hsize : (c.construct t).size = c.size + 1 := List.length_append
    rw [hsize, ← h.constructions_eq]
    rfl
  nodup := by
    rw [types_construct]
    exact h.nodup.append (List.nodup_singleton t) (by simpa using ht)
  mem_iff u := by
    rw [types_construct, List.mem_append, h.mem_iff, List.mem_singleton, Finset.mem_insert, or_comm]

end ZeroCache.Accounts

/-- What holds before a request holds after it, with the request counted. -/
theorem Query.accounts {r : ResolverId} {q : Query} {before : List Query}
    (h : (q.store.cache r).Accounts (requestedTypes r before)) :
    (q.after.cache r).Accounts (requestedTypes r (before ++ [q])) := by
  rw [requestedTypes_concat, Query.after]
  rcases q.store.zero?_cases q.resolver q.type with ⟨hkeeps, hsame⟩ | ⟨hvalue, hnew, hafter⟩
  · -- Nothing is constructed, so that a request that counts is for a type that is kept already.
    rw [hsame]
    split
    · next hcounts =>
      obtain ⟨rfl, hvalue⟩ := hcounts
      rw [Finset.insert_eq_of_mem ((h.mem_iff _).mp (hkeeps hvalue))]
      exact h
    · exact h
  · -- One zero value is constructed, by the resolver that has been asked.
    rw [hafter, Store.cache_setCache]
    by_cases hr : r = q.resolver
    · subst hr
      rw [if_pos rfl, if_pos ⟨rfl, hvalue⟩]
      exact h.construct hnew
    · rw [if_neg hr, if_neg fun hcounts => hr hcounts.1.symm]
      exact h

namespace Store.Leads

variable {s s' : Store} {r : ResolverId} {earlier qs : List Query}

/-- All requests are accounted for, together with earlier ones. -/
theorem accounts (h : s.Leads qs s')
    (hearlier : (s.cache r).Accounts (requestedTypes r earlier)) :
    (s'.cache r).Accounts (requestedTypes r (earlier ++ qs)) := by
  refine Store.Chain.invariant (P := fun earlier s => (s.cache r).Accounts (requestedTypes r earlier))
    ?_ h (fun _ _ _ => Query.accounts) hearlier
  intro earlier s s' hsame haccounts
  rwa [hsame r]

/-- A request finds the caches as the requests before it have left them. -/
theorem to_request {q : Query} {later : List Query} (h : s.Leads (earlier ++ q :: later) s') :
    s.Leads earlier q.store :=
  Store.Chain.to_place h

end Store.Leads

/-! ### The main theorem -/

/-- This many zero values have been constructed, and this many are kept. -/
def ZeroCache.Reports (c : ZeroCache) (n : Nat) : Prop := c.constructions = n ∧ c.size = n

theorem ZeroCache.Accounts.reports {c : ZeroCache} {types : Finset ValueType}
    (h : c.Accounts types) : c.Reports types.card :=
  ⟨h.constructions_eq.trans h.size_eq, h.size_eq⟩

open Operation

/-- **Resolvers count correctly.** A new resolver has constructed, and keeps, as many zero values as
there are different value types that it has been asked for: after every history of operations, and
before and after each of the requests that they make. A request for a reference type is answered with
nothing and changes nothing. Any other request is answered with an instance of the type that is its zero
value. -/
theorem resolver_accounting (s : Store) (r : ResolverId) (hnew : s.cache r = .empty)
    (history : List Operation) :
    (∃ qs, AllRequests s history qs) ∧
    ∀ qs, AllRequests s history qs →
      ((after s history).cache r).Reports (requestedTypes r qs).card ∧
      ∀ before q later, qs = before ++ q :: later →
        (q.store.cache r).Reports (requestedTypes r before).card ∧
        (q.after.cache r).Reports (requestedTypes r (before ++ [q])).card ∧
        (q.type.isValueType = false → q.answer = none ∧ q.after = q.store) ∧
        (q.type.isValueType = true →
          ∃ z, q.answer = some z ∧ z.isInstance q.type = true ∧ z.IsZeroOf q.type) := by
  have hstart : (s.cache r).Accounts (requestedTypes r []) := by
    rw [hnew]
    exact .empty
  refine ⟨exists_allRequests s history, ?_⟩
  intro qs hqs
  have hleads := hqs.leads
  refine ⟨(hleads.accounts hstart).reports, ?_⟩
  rintro before q later rfl
  have hbefore := hleads.to_request.accounts hstart
  exact ⟨hbefore.reports, (Query.accounts hbefore).reports, Query.of_reference, Query.of_value⟩

/-- The resolver is asked for two records of one name, for a text, for a default, and twice by a call:
for a local, and when the local is initialised. It constructs four zero values. -/
theorem resolver_accounting_shared :
    ∃ target g history qs,
      target = Procedure.host 1 "target" ⟨[.ofType .i64], .i64⟩ (fun _ => .ok (.i64 1)) ∧
      g = Procedure.generated ⟨3, "g", 5⟩ ⟨[], .unit⟩
        ⟨[0x12, 0x00, 0xFE, 0x15, 0x01, 0x00, 0x00, 0x1B, 0x2A], [.i16], ⟨[], [], [.i16]⟩⟩ ∧
      history = [.zeroValue 5 (.struct "Point" [("x", .i32)]),
        .zeroValue 5 (.struct "Point" [("x", .i64)]), .zeroValue 5 .str,
        .bindAt ⟨2, "b", 5⟩ target [.default .type] 0, .invoke g []] ∧
      Store.empty.cache 5 = .empty ∧ AllRequests .empty history qs ∧
      ((after .empty history).cache 5).constructions = 4 ∧
      ((after .empty history).cache 5).Reports (requestedTypes 5 qs).card := by
  obtain ⟨target, htarget⟩ : ∃ target, target = Procedure.host 1 "target"
    ⟨[.ofType .i64], .i64⟩ (fun _ => .ok (.i64 1)) := ⟨_, rfl⟩
  obtain ⟨g, hg⟩ : ∃ g, g = Procedure.generated ⟨3, "g", 5⟩ ⟨[], .unit⟩
    ⟨[0x12, 0x00, 0xFE, 0x15, 0x01, 0x00, 0x00, 0x1B, 0x2A], [.i16], ⟨[], [], [.i16]⟩⟩ :=
    ⟨_, rfl⟩
  obtain ⟨history, hhistory⟩ : ∃ history : List Operation, history =
      [.zeroValue 5 (.struct "Point" [("x", .i32)]),
        .zeroValue 5 (.struct "Point" [("x", .i64)]), .zeroValue 5 .str,
        .bindAt ⟨2, "b", 5⟩ target [.default .type] 0, .invoke g []] := ⟨_, rfl⟩
  obtain ⟨⟨qs, hqs⟩, hcounts⟩ := resolver_accounting .empty 5 rfl history
  refine ⟨target, g, history, qs, htarget, hg, hhistory, rfl, hqs, ?_, (hcounts qs hqs).1⟩
  subst hhistory hg htarget
  cbv

end CallAdapter
