import CallAdapter.Proofs.DecodeOnce

/-!
# What is kept does not show

The main theorem, `answer_after`, says that the caches are invisible. An operation has the same answer
after any two histories, one of which may be empty, so that resolvers are new and nothing has been
decoded.

For decoded bodies this rests on how cells are filled. The procedures of a family are told apart by
their identities, and a cell is filled by the procedure whose cell it is. So in every history the cell
of a member has been filled from that member's body (`Store.OwnCells`), and a call or a listing takes
its instructions from there: no cell is found that belongs to another body, and what is run is what the
cell holds (`Visit.TakesOwn`).
-/

namespace CallAdapter

open Operation

/-- What resolvers keep for a type is the zero value of this type. -/
def Store.OwnZeros (s : Store) : Prop :=
  ∀ r t entry, (s.cache r).find? t = some entry → entry.value = t.initial

/-- The cells of the members that are filled hold what decoding the members' own bodies gives. -/
def Store.OwnCells (F : Family) (s : Store) : Prop :=
  ∀ header signature body, .generated header signature body ∈ F.members →
    ∀ cell, s.cell? header.id = some cell →
      ∃ h : cell.outline = body.outline, body.decode = .ok (cell.held body h)

/-- The instructions are taken from the cell, which has been filled from the body that is visited. If
there are none, there is no cell, and none is left. -/
structure Visit.TakesOwn (v : Visit) : Prop where
  found : ∀ cell, v.store.cell? v.id = some cell → cell.outline = v.body.outline ∧ v.after = v.store
  taken : ∀ code, v.answer = .ok code → ∃ cell, v.after.cell? v.id = some cell ∧
    ∃ h : cell.outline = v.body.outline, code = cell.held v.body h
  failed : ∀ e, v.answer = .error e → v.store.cell? v.id = none ∧ v.after = v.store

theorem Store.Records.takesOwn {v : Visit} {before : List Visit}
    (h : v.store.Records v.id v.body before) : v.TakesOwn where
  found cell hcell := by
    refine ⟨h.outline_eq hcell, ?_⟩
    rcases v.after_cases with ⟨hsame, -⟩ | ⟨_, _, hnone, -⟩
    · exact hsame
    · cases hnone.symm.trans hcell
  taken code hanswer := by
    have hcode : v.body.decode = .ok code := v.answer_eq.symm.trans hanswer
    -- After the visit the procedure has been reached, so that there is a cell.
    have hafter : v.after.Records v.id v.body (before ++ [v]) := h.visit fun _ => rfl
    obtain ⟨⟨cell, hcell, houtline⟩, -⟩ :=
      hafter.decoded code hcode (reached_concat.mpr (.inr rfl))
    refine ⟨cell, hcell, houtline, ?_⟩
    exact Except.ok.inj (hcode.symm.trans (cell.decode_eq_held v.body houtline))
  failed e hanswer := by
    have he : v.body.decode = .error e := v.answer_eq.symm.trans hanswer
    exact ⟨(h.nothing fun _ => ⟨e, he⟩).1, Visit.after_eq_of_error he⟩

section Family

variable {F : Family} {history : List Operation} {vs : List Visit}

/-- What a history has left for a member. -/
theorem Operation.AllVisits.records (hvs : AllVisits .empty history vs)
    (hon : ∀ o ∈ history, o.IsOn F) {header : Header} {signature : Signature} {body : Body Callee}
    (hmem : .generated header signature body ∈ F.members) :
    (after .empty history).Records header.id body vs :=
  hvs.decodes.records (fun v hv => (hvs.isIn hon v hv).body_eq hmem) (.empty header.id body)

theorem ownCells_after (hon : ∀ o ∈ history, o.IsOn F) : (after .empty history).OwnCells F := by
  intro header signature body hmem cell hcell
  obtain ⟨vs, hvs⟩ := exists_allVisits .empty history
  have houtline := (hvs.records hon hmem).outline_eq hcell
  exact ⟨houtline, cell.decode_eq_held body houtline⟩

theorem takesOwn_of_visits (hon : ∀ o ∈ history, o.IsOn F) {o : Operation} (ho : o.IsOn F)
    {ws : List Visit} (hws : o.Visits (after .empty history) ws) {v : Visit} (hv : v ∈ ws) :
    v.TakesOwn := by
  obtain ⟨vs, hvs⟩ := exists_allVisits .empty history
  obtain ⟨header, signature, hid, hmem⟩ := hws.isIn ho v hv
  obtain ⟨before, later, rfl⟩ := List.append_of_mem hv
  -- The way to the visit: the history, and then what the operation has visited before.
  have hway := Store.Chain.to_place hws.decodes
  have hrecords := Store.Decodes.records hway
    (fun w hw => (hws.isIn ho w (List.mem_append_left _ hw)).body_eq hmem) (hvs.records hon hmem)
  rw [hid] at hrecords
  exact hrecords.takesOwn

end Family

/-- **Caches are invisible.** After any two histories an operation has the same answer. Where the
histories are about a family of procedures, no cell of a member holds anything but what decoding the
member's body gives, and wherever the operation comes to a body, in a call or in a call inside a call,
it takes the instructions from a cell that has been filled from this body. -/
theorem answer_after (history history' : List Operation) (o : Operation) :
    (o.perform (after .empty history)).1 = (o.perform (after .empty history')).1 ∧
    (after .empty history).OwnZeros ∧
    ∀ F : Family, (∀ o' ∈ history, o'.IsOn F) → o.IsOn F →
      (after .empty history).OwnCells F ∧
      (∃ vs, o.Visits (after .empty history) vs) ∧
      ∀ vs, o.Visits (after .empty history) vs → ∀ v ∈ vs, v.TakesOwn := by
  refine ⟨o.answer_eq _ _, fun _ _ _ => ZeroCache.value_of_find?, ?_⟩
  intro F hon ho
  refine ⟨ownCells_after hon, o.exists_visits _, ?_⟩
  intro vs hvs v hv
  exact takesOwn_of_visits hon ho hvs hv

/-- A procedure calls another one. After one call both cells are filled, and the next call begins with
what the cell of the caller holds. -/
theorem answer_after_filled :
    ∃ inner outer F history vs, ∃ o : Operation,
      inner = Procedure.generated ⟨1, "inner", 0⟩ ⟨[], .i32⟩ ⟨[0x17, 0x2A], [], ⟨[], [], []⟩⟩ ∧
      outer = Procedure.generated ⟨2, "outer", 0⟩ ⟨[.ofType .i32], .i32⟩
        ⟨[0x28, 0x01, 0x00, 0x00, 0x0A, 0x2A], [], ⟨[], [.procedure inner], []⟩⟩ ∧
      F.members = {p | p ∈ [outer, inner]} ∧ history = [.invoke outer [.i32 7]] ∧
      o = .invoke outer [.i32 8] ∧ (∀ o' ∈ history, o'.IsOn F) ∧ o.IsOn F ∧
      (after .empty history).cells.map (·.procedure) = [1, 2] ∧
      (after .empty history).OwnCells F ∧ o.Visits (after .empty history) vs ∧ Reached 2 vs ∧
      (∀ v ∈ vs, v.TakesOwn) ∧
      (o.perform (after .empty history)).1 = .returned (.ok (.i32 1)) ∧
      (o.perform (after .empty history)).1 = (o.perform (after .empty [])).1 := by
  obtain ⟨inner, hinner⟩ : ∃ p, p = Procedure.generated ⟨1, "inner", 0⟩ ⟨[], .i32⟩
    ⟨[0x17, 0x2A], [], ⟨[], [], []⟩⟩ := ⟨_, rfl⟩
  obtain ⟨outer, houter⟩ : ∃ p, p = Procedure.generated ⟨2, "outer", 0⟩ ⟨[.ofType .i32], .i32⟩
    ⟨[0x28, 0x01, 0x00, 0x00, 0x0A, 0x2A], [], ⟨[], [.procedure inner], []⟩⟩ := ⟨_, rfl⟩
  have hids : [outer, inner].map Procedure.id = [2, 1] := by
    rw [houter, hinner]
    rfl
  obtain ⟨F, hF⟩ := Family.exists_of_nodup [outer, inner] (hids ▸ by decide) (by
    intro header signature body h q hq
    rcases List.mem_pair.mp h with h | h
    · cases h.trans houter
      exact List.mem_pair.mpr (.inr (Callee.procedure.inj (List.mem_singleton.mp hq)))
    · cases h.trans hinner
      cases hq)
  obtain ⟨history, hhistory⟩ : ∃ history : List Operation, history = [.invoke outer [.i32 7]] :=
    ⟨_, rfl⟩
  obtain ⟨o, ho⟩ : ∃ o : Operation, o = .invoke outer [.i32 8] := ⟨_, rfl⟩
  have hon : ∀ o' ∈ history, o'.IsOn F := by
    simp [hhistory, Operation.IsOn, hF]
  have hon' : o.IsOn F := by
    simp [ho, Operation.IsOn, hF]
  obtain ⟨hsame, -, hkept⟩ := answer_after history [] o
  obtain ⟨hcells, ⟨vs, hvs⟩, htakes⟩ := hkept F hon hon'
  refine ⟨inner, outer, F, history, vs, o, hinner, houter, hF, hhistory, ho, hon, hon', ?_, hcells,
    hvs, ?_, htakes vs hvs, ?_, hsame⟩
  · subst hhistory houter hinner
    cbv
  · -- The arguments are received, so that the body is come to.
    subst ho houter
    have hcall : Activity.Visits (.call _ [.i32 8]) (after .empty history) vs := hvs
    cases hcall with
    | refused hrefused => cases hrefused
    | undecoded | decoded => exact ⟨_, List.mem_cons_self .., rfl⟩
  · subst ho hhistory houter hinner
    cbv

end CallAdapter
