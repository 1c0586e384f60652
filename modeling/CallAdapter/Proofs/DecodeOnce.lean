import CallAdapter.Proofs.Visits

/-!
# Bodies are decoded once

The main theorem, `decode_once`, is about any history of operations on a family of procedures that call
one another. A body that decodes is decoded the first time that something comes to it, directly or from
inside another call; this is logged then, and never again. A body that does not decode leaves no event
and an empty cell however often something comes to it, and each time the operation fails with the same
error.

What a store holds about one procedure is `Store.Records`. A visit takes it from the visits before to
the visits so far (`Store.Records.visit`), and the history by induction along its visits.
-/

namespace CallAdapter

/-! ### Families of procedures -/

/-- Procedures that call one another, and are told apart by their identities. -/
structure Family where
  members : Set Procedure
  callee_mem : ∀ header signature body, .generated header signature body ∈ members →
    ∀ q, Callee.procedure q ∈ body.tables.methods → q ∈ members
  eq_of_id : ∀ p ∈ members, ∀ q ∈ members, p.id = q.id → p = q

/-- Procedures with different identities that call one another are a family. -/
theorem Family.exists_of_nodup (ps : List Procedure) (hids : (ps.map Procedure.id).Nodup)
    (hcallees : ∀ header signature body, .generated header signature body ∈ ps →
      ∀ q, Callee.procedure q ∈ body.tables.methods → q ∈ ps) :
    ∃ F : Family, F.members = {p | p ∈ ps} :=
  ⟨⟨{p | p ∈ ps}, hcallees, fun _ hp _ hq hid => List.inj_on_of_nodup_map hids hp hq hid⟩, rfl⟩

/-- The visit is to a member of the family. -/
def Visit.IsIn (v : Visit) (F : Family) : Prop :=
  ∃ header signature, header.id = v.id ∧ .generated header signature v.body ∈ F.members

/-- Whatever can be called in the activity is a member of the family. -/
def Activity.IsOn (F : Family) : Activity → Prop
  | .call p _ => p ∈ F.members
  | .step _ _ p => ∀ q, p.instruction.move = .call (.procedure q) → q ∈ F.members
  | .run _ _ code => ∀ p ∈ code, ∀ q, p.instruction.move = .call (.procedure q) → q ∈ F.members

/-- The procedure that is listed or called is a member of the family. -/
def Operation.IsOn (F : Family) : Operation → Prop
  | .listing p | .invoke p _ => p ∈ F.members
  | _ => True

theorem Activity.Visits.isIn {F : Family} {a : Activity} {s : Store} {vs : List Visit}
    (h : a.Visits s vs) (hon : a.IsOn F) : ∀ v ∈ vs, v.IsIn F := by
  induction h with
  | host | refused | alone | nil => simp
  | @undecoded header signature =>
    rw [List.forall_mem_singleton]
    exact ⟨header, signature, rfl, hon⟩
  | @decoded header signature body _ _ _ _ _ _ _ _ hdecode _ _ ih =>
    refine List.forall_mem_cons.mpr ⟨⟨header, signature, rfl, hon⟩, ih ?_⟩
    intro p hp q hq
    exact F.callee_mem header signature body hon q (callee_mem_of_decode hdecode hp hq)
  | nested hcalls _ ih => exact ih (hon _ hcalls.move)
  | stop _ _ ih => exact ih (hon _ (List.mem_cons_self ..))
  | next _ _ _ ih ih' =>
    refine List.forall_mem_append.mpr ⟨ih (hon _ (List.mem_cons_self ..)), ih' ?_⟩
    exact fun p hp => hon p (List.mem_cons_of_mem _ hp)

theorem Operation.Visits.isIn {F : Family} {o : Operation} {s : Store} {vs : List Visit}
    (h : o.Visits s vs) (hon : o.IsOn F) : ∀ v ∈ vs, v.IsIn F := by
  cases o with
  | zeroValue | adapt | bindAt =>
    obtain rfl : vs = [] := h
    simp
  | listing p =>
    cases p with
    | host =>
      obtain rfl : vs = [] := h
      simp
    | generated header signature body =>
      obtain rfl : vs = [⟨header.id, body, s⟩] := h
      rw [List.forall_mem_singleton]
      exact ⟨header, signature, rfl, hon⟩
  | invoke p args => exact Activity.Visits.isIn h hon

theorem Operation.AllVisits.isIn {F : Family} {s : Store} {history : List Operation}
    {vs : List Visit} (h : AllVisits s history vs) (hon : ∀ o ∈ history, o.IsOn F) :
    ∀ v ∈ vs, v.IsIn F := by
  induction h with
  | nil s => simp
  | cons hfirst _ ih =>
    obtain ⟨hfirst', hrest⟩ := List.forall_mem_cons.mp hon
    exact List.forall_mem_append.mpr ⟨hfirst.isIn hfirst', ih hrest⟩

/-- The members of a family have one body each. -/
theorem Visit.IsIn.body_eq {F : Family} {v : Visit} (h : v.IsIn F) {header : Header}
    {signature : Signature} {body : Body Callee}
    (hmem : .generated header signature body ∈ F.members) (hid : v.id = header.id) :
    v.body = body := by
  obtain ⟨header', signature', hid', hmem'⟩ := h
  cases F.eq_of_id _ hmem' _ hmem (hid'.trans hid)
  rfl

/-! ### What visits leave -/

/-- The body of the procedure has been come to. -/
def Reached (id : ProcedureId) (vs : List Visit) : Prop := ∃ v ∈ vs, v.id = id

instance (id : ProcedureId) (vs : List Visit) : Decidable (Reached id vs) :=
  inferInstanceAs (Decidable (∃ v ∈ vs, v.id = id))

theorem reached_concat {id : ProcedureId} {vs : List Visit} {v : Visit} :
    Reached id (vs ++ [v]) ↔ Reached id vs ∨ v.id = id := by
  simp [Reached, or_and_right, exists_or]

/-- What the store holds about a procedure: if the body has been come to and decodes, the cell is full
with the instructions of this body and there is one event, and otherwise there is nothing. -/
structure Store.Records (s : Store) (id : ProcedureId) (body : Body Callee) (vs : List Visit) :
    Prop where
  decoded : ∀ code, body.decode = .ok code → Reached id vs →
    (∃ cell, s.cell? id = some cell ∧ cell.outline = body.outline) ∧
      s.decodings id = [.decoded id body.code.length code.length]
  nothing : (Reached id vs → ∃ e, body.decode = .error e) → s.cell? id = none ∧ s.decodings id = []

namespace Store.Records

variable {s s' : Store} {id : ProcedureId} {body : Body Callee} {vs : List Visit}

theorem empty (id : ProcedureId) (body : Body Callee) : Store.empty.Records id body [] where
  decoded _ _ hreached := by simp [Reached] at hreached
  nothing _ := ⟨rfl, rfl⟩

theorem of_sameCells (hsame : s.SameCells s') (h : s.Records id body vs) :
    s'.Records id body vs := by
  refine ⟨?_, ?_⟩
  · rw [hsame.cell?_eq, hsame.decodings]
    exact h.decoded
  · rw [hsame.cell?_eq, hsame.decodings]
    exact h.nothing

/-- A visit to another procedure changes nothing here. -/
theorem visit_other {v : Visit} (hother : v.id ≠ id) (h : v.store.Records id body vs) :
    v.after.Records id body (vs ++ [v]) := by
  have hreached : Reached id (vs ++ [v]) ↔ Reached id vs := by
    rw [reached_concat, or_iff_left hother]
  have hsame : v.after.cell? id = v.store.cell? id ∧
      v.after.decodings id = v.store.decodings id := by
    rcases v.after_cases with ⟨hsame, -⟩ | ⟨cell, code, -, -, hadd, hid, -, -⟩
    · rw [hsame]
      exact ⟨rfl, rfl⟩
    · have hne : cell.procedure ≠ id := hid ▸ hother
      rw [hadd, Store.cell?_addCell, Store.decodings_addCell, if_neg hne, if_neg hne]
      exact ⟨rfl, rfl⟩
  refine ⟨?_, ?_⟩
  · rw [hreached, hsame.1, hsame.2]
    exact h.decoded
  · rw [hreached, hsame.1, hsame.2]
    exact h.nothing

/-- A body that has been decoded is not decoded again. -/
theorem after_eq_of_reached {v : Visit} (h : v.store.Records v.id v.body vs)
    (hreached : Reached v.id vs) : v.after = v.store := by
  rcases v.after_cases with ⟨hsame, -⟩ | ⟨cell, code, hnone, hcode, -⟩
  · exact hsame
  · obtain ⟨⟨cell', hcell', -⟩, -⟩ := h.decoded code hcode hreached
    cases hnone.symm.trans hcell'

/-- A body that decodes is decoded at the first visit. -/
theorem after_eq_of_not_reached {v : Visit} (h : v.store.Records v.id v.body vs)
    (hreached : ¬ Reached v.id vs) {code : List (Placed Callee)} (hcode : v.body.decode = .ok code) :
    ∃ cell, v.after = v.store.addCell cell ∧ cell.procedure = v.id ∧ cell.outline = v.body.outline ∧
      cell.code.length = code.length := by
  obtain ⟨hnone, -⟩ := h.nothing fun hr => absurd hr hreached
  rcases v.after_cases with ⟨-, ⟨cell, hcell⟩ | ⟨e, he⟩⟩ | ⟨cell, code', -, hcode', hfacts⟩
  · cases hnone.symm.trans hcell
  · cases he.symm.trans hcode
  · cases hcode'.symm.trans hcode
    exact ⟨cell, hfacts⟩

/-- What holds before a visit holds after it, with the visit counted. -/
theorem visit {v : Visit} (hbody : v.id = id → v.body = body) (h : v.store.Records id body vs) :
    v.after.Records id body (vs ++ [v]) := by
  by_cases hid : v.id = id
  · obtain rfl := hbody hid
    subst hid
    have hreached : Reached v.id (vs ++ [v]) := reached_concat.mpr (.inr rfl)
    cases hdecode : v.body.decode with
    | error e =>
      rw [Visit.after_eq_of_error hdecode]
      refine ⟨?_, fun _ => h.nothing fun _ => ⟨e, hdecode⟩⟩
      intro code hcode
      cases hdecode.symm.trans hcode
    | ok code =>
      refine ⟨?_, ?_⟩
      · intro code' hcode' _
        cases hdecode.symm.trans hcode'
        -- The cell is filled when the procedure is reached for the first time.
        by_cases hbefore : Reached v.id vs
        · rw [after_eq_of_reached h hbefore]
          exact h.decoded code hdecode hbefore
        · obtain ⟨-, hnone⟩ := h.nothing fun hr => absurd hr hbefore
          obtain ⟨cell, hadd, hcell, houtline, hcount⟩ := after_eq_of_not_reached h hbefore hdecode
          rw [hadd, Store.cell?_addCell, Store.decodings_addCell, if_pos hcell, if_pos hcell,
            hnone, hcount, houtline]
          exact ⟨⟨cell, rfl, houtline⟩, rfl⟩
      · intro hfails
        obtain ⟨e, he⟩ := hfails hreached
        cases he.symm.trans hdecode
  · exact h.visit_other hid

end Store.Records

/-- A cell that is found for a procedure has been filled from its body. -/
theorem Store.Records.outline_eq {s : Store} {id : ProcedureId} {body : Body Callee}
    {vs : List Visit} (h : s.Records id body vs) {cell : DecodeCell} (hcell : s.cell? id = some cell) :
    cell.outline = body.outline := by
  -- Otherwise there would be no cell.
  have hreached : ¬ (Reached id vs → ∃ e, body.decode = .error e) := by
    intro hnothing
    cases (h.nothing hnothing).1.symm.trans hcell
  obtain ⟨hreached, hfails⟩ := Classical.not_imp.mp hreached
  cases hdecode : body.decode with
  | error e => exact absurd ⟨e, hdecode⟩ hfails
  | ok code =>
    obtain ⟨⟨cell', hcell', houtline⟩, -⟩ := h.decoded code hdecode hreached
    cases hcell.symm.trans hcell'
    exact houtline

theorem Store.Decodes.records {s s' : Store} {id : ProcedureId} {body : Body Callee}
    {earlier vs : List Visit} (h : s.Decodes vs s') (hbody : ∀ v ∈ vs, v.id = id → v.body = body)
    (hs : s.Records id body earlier) : s'.Records id body (earlier ++ vs) :=
  Store.Chain.invariant (P := fun earlier s => s.Records id body earlier)
    Store.Records.of_sameCells h (fun _ v hv => Store.Records.visit (hbody v hv)) hs

/-! ### The main theorem -/

/-- The body of the procedure is decoded at the first visit, which is logged, and never again. -/
structure DecodedOnce (id : ProcedureId) (event : Event) (vs : List Visit) (s : Store) : Prop where
  events : s.decodings id = if Reached id vs then [event] else []
  first : ∀ before v later, vs = before ++ v :: later → v.id = id → ¬ Reached id before →
    v.store.cell? id = none ∧ v.store.decodings id = [] ∧
      v.after.events = event :: v.store.events ∧ ∃ cell, v.after.cell? id = some cell
  again : ∀ before v later, vs = before ++ v :: later → v.id = id → Reached id before →
    v.after = v.store

/-- The body of the procedure does not decode: every visit fails, and leaves nothing. -/
structure NeverDecoded (id : ProcedureId) (e : RunError) (vs : List Visit) (s : Store) : Prop where
  events : s.decodings id = []
  cell : s.cell? id = none
  visits : ∀ v ∈ vs, v.id = id →
    v.answer = .error e ∧ v.after = v.store ∧ v.store.cell? id = none

namespace Store.Decodes

variable {s : Store} {id : ProcedureId} {body : Body Callee} {vs : List Visit}

/-- What the store of a visit holds is what the visits before it have left. -/
theorem records_at (h : Store.empty.Decodes vs s) (hbody : ∀ v ∈ vs, v.id = id → v.body = body)
    {before later : List Visit} {v : Visit} (hvs : vs = before ++ v :: later) :
    v.store.Records id body before := by
  subst hvs
  exact Store.Decodes.records (Store.Chain.to_place h)
    (fun w hw => hbody w (List.mem_append_left _ hw)) (.empty id body)

theorem decodedOnce (h : Store.empty.Decodes vs s) (hbody : ∀ v ∈ vs, v.id = id → v.body = body)
    {code : List (Placed Callee)} (hcode : body.decode = .ok code) :
    DecodedOnce id (.decoded id body.code.length code.length) vs s where
  events := by
    have hend := records h hbody (.empty id body)
    split
    · next hreached => exact (hend.decoded code hcode hreached).2
    · next hreached => exact (hend.nothing fun hr => absurd hr hreached).2
  first := by
    intro before v later hvs hid hreached
    have hrecords := records_at h hbody hvs
    obtain rfl := hbody v (by simp [hvs]) hid
    subst hid
    obtain ⟨hnone, hnothing⟩ := hrecords.nothing fun hr => absurd hr hreached
    obtain ⟨cell, hadd, hcell, houtline, hcount⟩ :=
      hrecords.after_eq_of_not_reached hreached hcode
    refine ⟨hnone, hnothing, ?_, cell, ?_⟩
    · have hbytes : cell.outline.code.length = v.body.code.length :=
        congrArg (·.code.length) houtline
      rw [hadd, ← hcell, ← hbytes, ← hcount]
      rfl
    · rw [hadd, Store.cell?_addCell, if_pos hcell]
  again := by
    intro before v later hvs hid hreached
    have hrecords := records_at h hbody hvs
    obtain rfl := hbody v (by simp [hvs]) hid
    subst hid
    exact hrecords.after_eq_of_reached hreached

theorem neverDecoded (h : Store.empty.Decodes vs s) (hbody : ∀ v ∈ vs, v.id = id → v.body = body)
    {e : RunError} (he : body.decode = .error e) : NeverDecoded id e vs s where
  events := ((records h hbody (.empty id body)).nothing fun _ => ⟨e, he⟩).2
  cell := ((records h hbody (.empty id body)).nothing fun _ => ⟨e, he⟩).1
  visits := by
    intro v hv hid
    obtain ⟨before, later, hvs⟩ := List.append_of_mem hv
    have hrecords := records_at h hbody hvs
    obtain rfl := hbody v hv hid
    exact ⟨v.answer_eq.trans he, Visit.after_eq_of_error he,
      (hrecords.nothing fun _ => ⟨e, he⟩).1⟩

end Store.Decodes

open Operation

/-- **Bodies are decoded once.** In every history of operations on the members of a family, a body that
decodes is decoded at the first visit, direct or nested. Then an event is logged and the cell is filled,
and later visits change nothing. A body that does not decode leaves no event and an empty cell, and every
operation that comes to it fails with the same error. -/
theorem decode_once (F : Family) (header : Header) (signature : Signature) (body : Body Callee)
    (hmem : .generated header signature body ∈ F.members) (history : List Operation)
    (hon : ∀ o ∈ history, o.IsOn F) :
    (∃ vs, AllVisits .empty history vs) ∧
    ∀ vs, AllVisits .empty history vs →
      (∀ code, body.decode = .ok code →
        DecodedOnce header.id (.decoded header.id body.code.length code.length) vs
          (after .empty history)) ∧
      ∀ e, body.decode = .error e →
        NeverDecoded header.id e vs (after .empty history) ∧
        ∀ o : Operation, o.IsOn F → ∀ s ws, o.Visits s ws → Reached header.id ws →
          (o.perform s).1.Fails e := by
  refine ⟨exists_allVisits .empty history, ?_⟩
  intro vs hvs
  have hbody : ∀ v ∈ vs, v.id = header.id → v.body = body :=
    fun v hv hid => (hvs.isIn hon v hv).body_eq hmem hid
  refine ⟨fun code hcode => hvs.decodes.decodedOnce hbody hcode, ?_⟩
  intro e he
  refine ⟨hvs.decodes.neverDecoded hbody he, ?_⟩
  rintro o ho s ws hws ⟨v, hv, hid⟩
  have hv' : v.body = body := (hws.isIn ho v hv).body_eq hmem hid
  exact hws.fails hv (hv' ▸ he)

/-- A procedure calls another one, and is refused at first; a third one does not decode. Of the two that
decode, the caller is decoded first, and neither is decoded again. -/
theorem decode_once_nested :
    ∃ inner outer bad F history vs,
      inner = Procedure.generated ⟨1, "inner", 0⟩ ⟨[], .i32⟩ ⟨[0x17, 0x2A], [], ⟨[], [], []⟩⟩ ∧
      outer = Procedure.generated ⟨2, "outer", 0⟩ ⟨[.ofType .i32], .i32⟩
        ⟨[0x28, 0x01, 0x00, 0x00, 0x0A, 0x2A], [], ⟨[], [.procedure inner], []⟩⟩ ∧
      bad = Procedure.generated ⟨3, "bad", 0⟩ ⟨[], .unit⟩ ⟨[0x01], [], ⟨[], [], []⟩⟩ ∧
      F.members = {inner, outer, bad} ∧
      history = [.invoke outer [], .listing bad, .invoke outer [.i32 7], .listing inner,
        .invoke bad [], .invoke outer [.i32 8]] ∧
      AllVisits .empty history vs ∧ (∀ o ∈ history, o.IsOn F) ∧
      DecodedOnce 1 (.decoded 1 2 2) vs (after .empty history) ∧
      DecodedOnce 2 (.decoded 2 6 2) vs (after .empty history) ∧
      NeverDecoded 3 (.unsupportedOpcode 0 0x01) vs (after .empty history) ∧
      (after .empty history).events = [.decoded 1 2 2, .decoded 2 6 2] := by
  obtain ⟨inner, hinner⟩ : ∃ p, p = Procedure.generated ⟨1, "inner", 0⟩ ⟨[], .i32⟩
    ⟨[0x17, 0x2A], [], ⟨[], [], []⟩⟩ := ⟨_, rfl⟩
  obtain ⟨outer, houter⟩ : ∃ p, p = Procedure.generated ⟨2, "outer", 0⟩ ⟨[.ofType .i32], .i32⟩
    ⟨[0x28, 0x01, 0x00, 0x00, 0x0A, 0x2A], [], ⟨[], [.procedure inner], []⟩⟩ := ⟨_, rfl⟩
  obtain ⟨bad, hbad⟩ : ∃ p, p = Procedure.generated ⟨3, "bad", 0⟩ ⟨[], .unit⟩
    ⟨[0x01], [], ⟨[], [], []⟩⟩ := ⟨_, rfl⟩
  have hids : [inner, outer, bad].map Procedure.id = [1, 2, 3] := by
    rw [hinner, houter, hbad]
    rfl
  obtain ⟨F, hF⟩ : ∃ F : Family, F.members = {inner, outer, bad} := by
    obtain ⟨F, hF⟩ := Family.exists_of_nodup [inner, outer, bad] (hids ▸ by decide) (by
      intro header signature body h q hq
      simp only [List.mem_cons, List.not_mem_nil, or_false] at h ⊢
      rcases h with h | h | h
      · cases h.trans hinner
        cases hq
      · cases h.trans houter
        simp only [List.mem_singleton, Callee.procedure.injEq] at hq
        exact .inl hq
      · cases h.trans hbad
        cases hq)
    exact ⟨F, hF.trans (by ext; simp)⟩
  obtain ⟨history, hhistory⟩ : ∃ history : List Operation, history =
      [.invoke outer [], .listing bad, .invoke outer [.i32 7], .listing inner, .invoke bad [],
        .invoke outer [.i32 8]] := ⟨_, rfl⟩
  have hon : ∀ o ∈ history, o.IsOn F := by
    simp [hhistory, Operation.IsOn, hF]
  have hmem : inner ∈ F.members ∧ outer ∈ F.members ∧ bad ∈ F.members := by simp [hF]
  obtain ⟨⟨vs, hvs⟩, hinner'⟩ := decode_once F _ _ _ (hinner ▸ hmem.1) history hon
  obtain ⟨-, houter'⟩ := decode_once F _ _ _ (houter ▸ hmem.2.1) history hon
  obtain ⟨-, hbad'⟩ := decode_once F _ _ _ (hbad ▸ hmem.2.2) history hon
  refine ⟨inner, outer, bad, F, history, vs, hinner, houter, hbad, hF, hhistory, hvs, hon,
    (hinner' vs hvs).1 [⟨0, .bare .ldcI41⟩, ⟨1, .bare .ret⟩] (by cbv),
    (houter' vs hvs).1 [⟨0, .call, .method (.procedure inner)⟩, ⟨5, .bare .ret⟩] (by cbv),
    ((hbad' vs hvs).2 (.unsupportedOpcode 0 0x01) (by cbv)).1, ?_⟩
  subst hhistory hbad houter hinner
  cbv

end CallAdapter
