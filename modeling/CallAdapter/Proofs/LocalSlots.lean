import CallAdapter.Proofs.Faults

/-!
# Local slots

Constants are loaded one after the other, and some of them are refused on the way. Each absent value
takes a local slot, whose index goes into the code long before the locals are declared. The first main
theorem, `loadEach_slotsApart`, says that this comes out right: the body declares every slot that its
code goes through, with the type that the code initialises it with, and each slot belongs to one
constant alone. The second, `steps_loadConstant_frame`, says that the code of a constant keeps to its
slot: it pushes one value, and whatever else is in the frame stays as it is.

What one call does is said by `Draft.load_cases`, and what its code does with the slots by
`LoadedBy.slotsApart`. A sequence of calls leaves code that fetches constants (`Draft.exists_fetches`),
so that the results about such code apply.
-/

namespace CallAdapter

open Machine

variable {κ : Type}

/-! ### One call -/

namespace Draft

/-- A constant that is refused leaves the draft as it was. Any other puts its code at the end, in one
of the three forms. -/
theorem load_cases (d : Draft Callee) (v : Option Value) (t : ValueType) :
    (∃ e, d.load v t = (.error e, d)) ∨
      ∃ code locals, d.load v t = (.ok code, ⟨d.code ++ code, locals⟩) ∧
        LoadedBy t d.locals v (code, locals) := by
  unfold load
  rcases writeConstant_cases v t d.locals with ⟨e, herror⟩ | ⟨code, locals, hok, -, hloaded⟩
  · rw [herror]
    exact .inl ⟨e, rfl⟩
  · rw [hok]
    exact .inr ⟨code, locals, rfl, hloaded⟩

/-- What the calls that succeed have given, put together. -/
def loadedCode (results : List (Except BuildError (List (Instruction Callee)))) :
    List (Instruction Callee) :=
  (results.filterMap Except.toOption).flatten

/-- A sequence of calls leaves the code of those that succeed, and it is code that fetches
constants. -/
theorem exists_fetches (d : Draft Callee) (calls : List (Option Value × ValueType)) :
    ∃ sources, Fetches d.locals sources (loadedCode (d.loadEach calls).1)
        (d.loadEach calls).2.locals ∧ sources.length ≤ calls.length ∧
      (d.loadEach calls).2.code = d.code ++ loadedCode (d.loadEach calls).1 := by
  induction calls generalizing d with
  | nil => exact ⟨[], .nil, Nat.le_refl 0, by simp [loadEach, loadedCode]⟩
  | cons call calls ih =>
    obtain ⟨v, t⟩ := call
    rw [loadEach]
    rcases d.load_cases v t with ⟨e, hload⟩ | ⟨code, locals, hload, hloaded⟩
    · rw [hload]
      obtain ⟨sources, hfetches, hcount, hcode⟩ := ih d
      exact ⟨sources, hfetches, Nat.le_succ_of_le hcount, hcode⟩
    · rw [hload]
      obtain ⟨sources, hfetches, hcount, hcode⟩ := ih ⟨d.code ++ code, locals⟩
      refine ⟨.constant v t :: sources, .constant hloaded hfetches, Nat.succ_le_succ hcount, ?_⟩
      exact hcode.trans (List.append_assoc _ _ _)

end Draft

/-! ### Groups of instructions -/

/-- The opcodes that address, initialise or load locals. -/
def slotOps : List OpCode := [.ldlocaS, .initobj, .ldlocS, .ldloc0, .ldloc1, .ldloc2, .ldloc3]

/-- From the given place on the code takes the address of a local, initialises what is there with the
type, and loads the local. -/
structure SlotGroup (code : List (Instruction κ)) (place : Nat) (index : UInt8) (t : ValueType) :
    Prop where
  address : code[place]? = some (.loadLocalAddress index)
  init : code[place + 1]? = some ⟨.initobj, .type t⟩
  load : code[place + 2]? = some (.loadLocal index)

theorem slotGroup_cons_succ {i : Instruction κ} {code : List (Instruction κ)} {place : Nat}
    {index : UInt8} {t : ValueType} :
    SlotGroup (i :: code) (place + 1) index t ↔ SlotGroup code place index t :=
  ⟨fun h => ⟨h.address, h.init, h.load⟩, fun h => ⟨h.address, h.init, h.load⟩⟩

theorem op_loadLocal_ne (index : UInt8) :
    (Instruction.loadLocal index : Instruction κ).op ≠ .ldlocaS := by
  unfold Instruction.loadLocal
  split <;> simp [Instruction.bare]

namespace SlotGroup

variable {i : Instruction κ} {code : List (Instruction κ)} {place : Nat} {index index' : UInt8}
  {t t' : ValueType}

theorem op_head (h : SlotGroup (i :: code) 0 index t) : i.op = .ldlocaS := by
  cases h.address
  rfl

theorem of_other (hi : i.op ∉ slotOps) (h : SlotGroup (i :: code) place index t) :
    ∃ place', place = place' + 1 ∧ SlotGroup code place' index t := by
  cases place with
  | zero =>
    rw [h.op_head] at hi
    exact absurd (by decide) hi
  | succ place => exact ⟨place, rfl, slotGroup_cons_succ.mp h⟩

/-- Groups do not overlap. -/
theorem of_group (h : SlotGroup (.loadLocalAddress index :: ⟨.initobj, .type t⟩ ::
      .loadLocal index :: code) place index' t') :
    (place = 0 ∧ index' = index ∧ t' = t) ∨
      ∃ place', place = place' + 3 ∧ SlotGroup code place' index' t' := by
  rcases place with _ | _ | _ | place
  · cases h.address
    cases h.init
    exact .inl ⟨rfl, rfl, rfl⟩
  · cases (slotGroup_cons_succ.mp h).op_head
  · have hop := (slotGroup_cons_succ.mp (slotGroup_cons_succ.mp h)).op_head
    exact absurd hop (op_loadLocal_ne index)
  · exact .inr ⟨place, rfl, by simpa only [slotGroup_cons_succ] using h⟩

end SlotGroup

theorem not_slotGroup_nil (place : Nat) (index : UInt8) (t : ValueType) :
    ¬ SlotGroup ([] : List (Instruction κ)) place index t := by
  intro h
  cases h.address

/-- The code goes through local slots, which have the types from `first` on, one group for each
slot. -/
structure SlotsApart (code : List (Instruction κ)) (first : Nat) (types : List ValueType) :
    Prop where
  /-- A group goes through a declared slot, of the type that it initialises the slot with. -/
  declared : ∀ place index t, SlotGroup code place index t →
    first ≤ index.toNat ∧ types[index.toNat - first]? = some t
  /-- No two groups go through one slot. -/
  unshared : ∀ place place' index t t', SlotGroup code place index t →
    SlotGroup code place' index t' → place = place'
  /-- Slots are not used but in groups. -/
  grouped : ∀ k i, code[k]? = some i → i.op ∈ slotOps →
    ∃ place index t, SlotGroup code place index t ∧ place ≤ k ∧ k ≤ place + 2
  /-- Every declared slot has a group. -/
  used : ∀ n t, types[n]? = some t → ∃ place index, SlotGroup code place index t ∧
    index.toNat = first + n

namespace SlotsApart

variable {first : Nat} {code : List (Instruction κ)} {types : List ValueType}

theorem nil (first : Nat) : SlotsApart ([] : List (Instruction κ)) first [] where
  declared place index t h := absurd h (not_slotGroup_nil place index t)
  unshared place _ index t _ h := absurd h (not_slotGroup_nil place index t)
  grouped := by simp
  used := by simp

theorem group {index : UInt8} {t : ValueType} (hindex : index.toNat = first)
    (h : SlotsApart code (first + 1) types) :
    SlotsApart (.loadLocalAddress index :: ⟨.initobj, .type t⟩ :: .loadLocal index :: code) first
      (t :: types) where
  declared := by
    intro place index' t' hgroup
    rcases hgroup.of_group with ⟨-, rfl, rfl⟩ | ⟨rest, -, hrest⟩
    · simp [hindex]
    · obtain ⟨hle, htype⟩ := h.declared rest index' t' hrest
      refine ⟨by omega, ?_⟩
      rwa [show index'.toNat - first = index'.toNat - (first + 1) + 1 by omega]
  unshared := by
    intro place place' index' t' t'' hgroup hgroup'
    rcases hgroup.of_group with ⟨rfl, rfl, -⟩ | ⟨rest, rfl, hrest⟩ <;>
      rcases hgroup'.of_group with ⟨rfl, hsame, -⟩ | ⟨rest', rfl, hrest'⟩
    · rfl
    · -- The slots behind the first group are above its slot.
      have hle := (h.declared _ _ _ hrest').1
      omega
    · have hle := (h.declared _ _ _ hrest).1
      rw [hsame] at hle
      omega
    · rw [h.unshared _ _ _ _ _ hrest hrest']
  grouped := by
    intro k i hk hi
    rcases Nat.lt_or_ge k 3 with hlt | hge
    · exact ⟨0, index, t, ⟨rfl, rfl, rfl⟩, by omega, by omega⟩
    · obtain ⟨k, rfl⟩ := Nat.exists_eq_add_of_le' hge
      obtain ⟨place, index', t', hgroup, hle, hle'⟩ := h.grouped k i hk hi
      exact ⟨place + 3, index', t', by simpa only [slotGroup_cons_succ] using hgroup, by omega,
        by omega⟩
  used := by
    intro n t' ht'
    cases n with
    | zero =>
      cases ht'
      exact ⟨0, index, ⟨rfl, rfl, rfl⟩, hindex⟩
    | succ n =>
      obtain ⟨place, index', hgroup, hindex'⟩ := h.used n t' ht'
      exact ⟨place + 3, index', by simpa only [slotGroup_cons_succ] using hgroup, by omega⟩

theorem other {i : Instruction κ} (hi : i.op ∉ slotOps) (h : SlotsApart code first types) :
    SlotsApart (i :: code) first types where
  declared := by
    intro place index t hgroup
    obtain ⟨rest, -, hrest⟩ := hgroup.of_other hi
    exact h.declared rest index t hrest
  unshared := by
    intro place place' index t t' hgroup hgroup'
    obtain ⟨rest, rfl, hrest⟩ := hgroup.of_other hi
    obtain ⟨rest', rfl, hrest'⟩ := hgroup'.of_other hi
    rw [h.unshared _ _ _ _ _ hrest hrest']
  grouped := by
    intro k j hk hj
    cases k with
    | zero =>
      cases hk
      exact absurd hj hi
    | succ k =>
      obtain ⟨place, index, t, hgroup, hle, hle'⟩ := h.grouped k j hk hj
      exact ⟨place + 1, index, t, slotGroup_cons_succ.mpr hgroup, by omega, by omega⟩
  used := by
    intro n t ht
    obtain ⟨place, index, hgroup, hindex⟩ := h.used n t ht
    exact ⟨place + 1, index, slotGroup_cons_succ.mpr hgroup, hindex⟩

end SlotsApart

/-! ### The slots of code that fetches arguments -/

theorem op_literal_not_mem {v : Value} {i : Instruction κ} (h : v.literal? = some i) :
    i.op ∉ slotOps := by
  cases v with
  | bool b =>
    cases h
    cases b <;> simp [slotOps, Instruction.bare]
  | u8 | i16 | i32 | i64 | f32 | f64 | str =>
    cases h
    simp [slotOps]
  | _ => cases h

theorem op_loadArgument_not_mem (index : UInt8) :
    (Instruction.loadArgument index : Instruction κ).op ∉ slotOps := by
  unfold Instruction.loadArgument
  split <;> simp [slotOps, Instruction.bare]

/-- In front of code that keeps its slots apart, a constant may be loaded. -/
theorem LoadedBy.slotsApart {t : ValueType} {locals locals' : Locals} {v : Option Value}
    {code more : List (Instruction Callee)} {types : List ValueType}
    (h : LoadedBy t locals v (code, locals')) (hmore : SlotsApart more locals'.size types) :
    ∃ types', locals'.types = locals.types ++ types' ∧
      SlotsApart (code ++ more) locals.size (types' ++ types) := by
  cases h with
  | absent _ hsize =>
    refine ⟨[t], rfl, .group (UInt8.toNat_ofNat_of_lt' hsize) ?_⟩
    simpa [Locals.size] using hmore
  | plain _ _ _ hi => exact ⟨[], by simp, .other (op_literal_not_mem hi) hmore⟩
  | wrapped _ _ _ hi =>
    exact ⟨[], by simp, .other (op_literal_not_mem hi) (.other (by simp [slotOps]) hmore)⟩

theorem Fetches.slotsApart {locals locals' : Locals} {sources : List Source}
    {code : List (Instruction Callee)} (h : Fetches locals sources code locals') :
    ∃ types, locals'.types = locals.types ++ types ∧ SlotsApart code locals.size types := by
  induction h with
  | nil => exact ⟨[], by simp, .nil _⟩
  | argument index _ ih =>
    obtain ⟨types, htypes, hcode⟩ := ih
    exact ⟨types, htypes, .other (op_loadArgument_not_mem index) hcode⟩
  | constant hload _ ih =>
    obtain ⟨types, htypes, hmore⟩ := ih
    obtain ⟨types', htypes', hcode⟩ := hload.slotsApart hmore
    exact ⟨types' ++ types, by rw [htypes, htypes', List.append_assoc], hcode⟩

theorem Fetches.size_le_limit {locals locals' : Locals} {sources : List Source}
    {code : List (Instruction Callee)} (h : Fetches locals sources code locals')
    (hsize : locals.size ≤ 256) : locals'.size ≤ 256 := by
  induction h with
  | nil => exact hsize
  | argument _ _ ih => exact ih hsize
  | constant hload _ ih => exact ih (hload.size_le_limit hsize)

/-! ### Sequences of calls -/

/-- What a call may do with the slots. -/
structure Draft.KeepsSlots (d : Draft Callee) (v : Option Value) (t : ValueType) : Prop where
  /-- If it is refused, no slot has been asked for. -/
  refused : ∀ e d', d.load v t = (.error e, d') → d'.locals = d.locals
  /-- Otherwise at most one slot has been asked for, which is of the type. -/
  loaded : ∀ code d', d.load v t = (.ok code, d') →
    d'.locals = d.locals ∨ d'.locals = ⟨d.locals.types ++ [t]⟩
  /-- There are never more slots than indices. -/
  bounded : (d.load v t).2.locals.size ≤ 256

theorem Draft.keepsSlots (d : Draft Callee) (hsize : d.locals.size ≤ 256) (v : Option Value)
    (t : ValueType) : d.KeepsSlots v t := by
  rcases d.load_cases v t with ⟨e, hload⟩ | ⟨code, locals, hload, hloaded⟩
  · refine ⟨?_, ?_, by rwa [hload]⟩
    · intro e' d' h
      rw [hload] at h
      cases h
      rfl
    · intro code d' h
      rw [hload] at h
      cases h
  · refine ⟨?_, ?_, by simpa only [hload] using hloaded.size_le_limit hsize⟩
    · intro e d' h
      rw [hload] at h
      cases h
    · intro code' d' h
      rw [hload] at h
      cases h
      cases hloaded with
      | absent => exact .inr rfl
      | plain | wrapped => exact .inl rfl

/-- A body that is made of constants alone decodes to the code that loads them. -/
theorem Fetches.decode_eq {locals : Locals} {sources : List Source}
    {code : List (Instruction Callee)} {body : Body Callee}
    (h : Fetches .empty sources code locals)
    (hfinish : Draft.finish ⟨code, locals⟩ = .ok body) :
    (∀ ps, body.decode = .ok ps → ps.map Placed.instruction = code) ∧
      (sources.length < Token.rowLimit → ∃ ps, body.decode = .ok ps) := by
  -- Callees that are the same share a row; here they are constructors, which are then equal.
  have hcallees : ∀ i ∈ code, ∀ j ∈ code, ∀ a c, i.operand = .method a →
      j.operand = .method c → (a == c) = true → a = c := by
    intro i hi j hj a c ha hc hac
    obtain ⟨u, rfl⟩ := h.wrappersOnly i hi a ha
    obtain ⟨u', rfl⟩ := h.wrappersOnly j hj c hc
    rw [eq_of_beq (show (u == u') = true from hac)]
  constructor
  · intro ps hps
    obtain ⟨ps', hps', hcode⟩ := Draft.decode_eq hfinish
      (Draft.addressable_of_decode hfinish hps) hcallees
    cases hps.symm.trans hps'
    exact hcode
  · intro hcount
    have hfits : body.tables.Addressable :=
      Draft.addressable_of_count hfinish fun kind hkind => (h.count_le hkind).trans_lt hcount
    obtain ⟨ps, hps, -⟩ := Draft.decode_eq hfinish hfits hcallees
    exact ⟨ps, hps⟩

/-- **Slots are not shared, lost or leaked.** After any sequence of calls, some of them refused, a
call that is refused leaves the slots as they were, and any other asks for at most one, of its type.
The code of the calls that have succeeded can be made into a body, which decodes to it. The body
declares the slots asked for, and each of them has a group of instructions of its own, which initialises
it with the type that it is declared with. -/
theorem loadEach_slotsApart (calls : List (Option Value × ValueType)) :
    (∀ v t, (Draft.empty.loadEach calls).2.KeepsSlots v t) ∧
    ∃ body, (Draft.empty.loadEach calls).2.finish = .ok body ∧
      body.locals = (Draft.empty.loadEach calls).2.locals.types ∧ body.locals.length ≤ 256 ∧
      SlotsApart (Draft.loadedCode (Draft.empty.loadEach calls).1) 0 body.locals ∧
      (∀ ps, body.decode = .ok ps →
        ps.map Placed.instruction = Draft.loadedCode (Draft.empty.loadEach calls).1) ∧
      (calls.length < Token.rowLimit → ∃ ps, body.decode = .ok ps) := by
  obtain ⟨sources, hfetches, hcount, hcode⟩ := Draft.empty.exists_fetches calls
  have hsize := hfetches.size_le_limit (Nat.zero_le 256)
  -- The code of the draft is what the calls have returned, in order.
  have hdraft : (Draft.empty.loadEach calls).2 =
      ⟨Draft.loadedCode (Draft.empty.loadEach calls).1,
        (Draft.empty.loadEach calls).2.locals⟩ := by
    rw [← show (Draft.empty.loadEach calls).2.code = Draft.loadedCode _ from hcode]
  refine ⟨fun v t => Draft.keepsSlots _ hsize v t, ?_⟩
  obtain ⟨body, hfinish⟩ := Draft.exists_finish
    ⟨Draft.loadedCode (Draft.empty.loadEach calls).1, (Draft.empty.loadEach calls).2.locals⟩
    hfetches.wellFormed
  obtain ⟨-, hlocals⟩ := Draft.finish_eq_ok hfinish
  obtain ⟨types, htypes, hslots⟩ := hfetches.slotsApart
  obtain ⟨hdecode, hexists⟩ := Fetches.decode_eq hfetches hfinish
  refine ⟨body, by rw [hdraft]; exact hfinish, hlocals, hlocals ▸ hsize, ?_, hdecode,
    fun h => hexists (hcount.trans_lt h)⟩
  have hsame : body.locals = types := hlocals.trans htypes
  rw [hsame]
  exact hslots

-- The second of three absent values has a type without constants, and gets no slot.
example : (Draft.empty.loadEach [(none, .i32), (none, .reference "t"), (none, .str)]).2.locals.types
    = [.i32, .str] := by
  decide

/-! ### What the code of a constant does -/

/-- **A constant keeps to its slot.** The code that loads a constant runs in any frame that has the
slots asked for. It pushes one value on the stack, and changes nothing else but the slot that it has
asked for itself. -/
theorem steps_loadConstant_frame (c : Context) (v : Option Value) (t : ValueType)
    (locals locals' : Locals) (code : List (Instruction Callee))
    (h : loadConstant v t locals = .ok (code, locals')) (ps : List (Placed Link))
    (hps : ps.map Placed.instruction = linkCode code) (f : Frame)
    (hroom : locals'.size ≤ f.locals.length) (s : Store) :
    ∃ f' s', (steps c ps f).runOn s = (.ok (.next f'), s') ∧
      f'.stack = .value (loadedValue v t) :: f.stack ∧ f'.args = f.args ∧
      f'.locals.length = f.locals.length ∧
      ∀ k, f'.locals[k]? ≠ f.locals[k]? →
        k = locals.size ∧ locals' = ⟨locals.types ++ [t]⟩ := by
  obtain ⟨-, hloaded⟩ := loadedBy_of_loadConstant h
  obtain ⟨slots, hlength, hkept, hgives⟩ := steps_loadConstant c hloaded hps f hroom
  refine ⟨Frame.pushValue { f with locals := slots } (loadedValue v t), ((steps c ps f).runOn s).2,
    Prod.ext (hgives s) rfl, rfl, rfl, hlength, ?_⟩
  intro k hk
  have hnew : locals.size ≤ k ∧ k < locals'.size := by
    by_contra hold
    exact hk (hkept k (by omega))
  cases hloaded with
  | absent =>
    have hsize : k < locals.size + 1 := by simpa [Locals.size] using hnew.2
    exact ⟨by omega, rfl⟩
  | plain | wrapped => omega

/-- The second of three slots is initialised. -/
theorem steps_loadConstant_frame_second :
    ∃ f' s', loadConstant none .i32 ⟨[.str]⟩ =
        .ok ([.loadLocalAddress 1, ⟨.initobj, .type .i32⟩, .loadLocal 1], ⟨[.str, .i32]⟩) ∧
      (steps ⟨"f", .unit, 0⟩
        [⟨0, .loadLocalAddress 1⟩, ⟨2, ⟨.initobj, .type .i32⟩⟩, ⟨8, .loadLocal 1⟩]
        ⟨[.bool true], [.str "a", .i32 7, .str "b"], [.localSlot 2]⟩).runOn .empty =
          (.ok (.next f'), s') ∧
      f'.stack = [.value (.i32 0), .localSlot 2] ∧ f'.args = [.bool true] ∧
      f'.locals[0]? = some (.str "a") ∧ f'.locals[2]? = some (.str "b") := by
  have hload : loadConstant none .i32 ⟨[.str]⟩ =
      .ok ([.loadLocalAddress 1, ⟨.initobj, .type .i32⟩, .loadLocal 1], ⟨[.str, .i32]⟩) := rfl
  obtain ⟨f', s', hrun, hstack, hargs, -, hkept⟩ := steps_loadConstant_frame ⟨"f", .unit, 0⟩ none
    .i32 ⟨[.str]⟩ _ _ hload
    [⟨0, .loadLocalAddress 1⟩, ⟨2, ⟨.initobj, .type .i32⟩⟩, ⟨8, .loadLocal 1⟩] rfl
    ⟨[.bool true], [.str "a", .i32 7, .str "b"], [.localSlot 2]⟩ (by decide) .empty
  refine ⟨f', s', hload, hrun, hstack, hargs, ?_, ?_⟩
  · by_contra hne
    cases (hkept 0 hne).1
  · by_contra hne
    cases (hkept 2 hne).1

end CallAdapter
