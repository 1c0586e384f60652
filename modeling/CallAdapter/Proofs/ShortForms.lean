import CallAdapter.Proofs.Adapter
import CallAdapter.Proofs.Displacement
import CallAdapter.Proofs.EncoderPasses

/-!
# Short forms

The loads of the first four arguments and locals can be written with an index or, one byte shorter, with
an opcode of their own. `Instruction.canonical` puts every indexed load into its shortest form.

The short form does the same (`canonical_cases`), and it takes no row in the tables. So the encoder
refuses canonical code for the same reason as the code itself, and gives it the same tables
(`encodeAll_canonical`). What is read back does the same one by one, at other offsets
(`Decoded.Alike`), and the runs mirror each other.

An error names an offset if the frame has raised it at an instruction, or if the code cannot be read.
Such an offset is all that can change in what a call answers (`Procedure.AnswersAlike`).
-/

namespace CallAdapter

variable {κ : Type}

/-! ### Instructions -/

namespace Instruction

/-- The instruction in its shortest form. -/
def canonical (i : Instruction κ) : Instruction κ :=
  match i.operand with
  | .byte index => (indexed i.op index).toOption.getD i
  | _ => i

/-- Whether the instruction loads one of the first four arguments or locals by its index. -/
def isLongLoad (i : Instruction κ) : Bool :=
  match i.op, i.operand with
  | .ldargS, .byte index | .ldlocS, .byte index => index.toNat ≤ 3
  | _, _ => false

/-- The second instruction does what the first one does with an index, without an operand. -/
structure Shortens (i j : Instruction κ) : Prop where
  index : ∃ index, i.operand = .byte index
  kind_eq : i.op.operandKind = .byte
  bare : j = .bare j.op
  bare_kind_eq : j.op.operandKind = .none
  size_eq : j.op.size = i.op.size
  move_eq : j.move = i.move

theorem loadArgument_cases (index : UInt8) :
    (3 < index.toNat ∧ (loadArgument index : Instruction κ) = ⟨.ldargS, .byte index⟩) ∨
      (index.toNat ≤ 3 ∧ (⟨.ldargS, .byte index⟩ : Instruction κ).Shortens (loadArgument index)) := by
  unfold loadArgument
  split
  case h_5 => exact .inl ⟨by grind, rfl⟩
  all_goals
    next h =>
      exact .inr ⟨by omega, ⟨index, rfl⟩, rfl, rfl, rfl, rfl, congrArg Move.loadArgument h.symm⟩

theorem loadLocal_cases (index : UInt8) :
    (3 < index.toNat ∧ (loadLocal index : Instruction κ) = ⟨.ldlocS, .byte index⟩) ∨
      (index.toNat ≤ 3 ∧ (⟨.ldlocS, .byte index⟩ : Instruction κ).Shortens (loadLocal index)) := by
  unfold loadLocal
  split
  case h_5 => exact .inl ⟨by grind, rfl⟩
  all_goals
    next h =>
      exact .inr ⟨by omega, ⟨index, rfl⟩, rfl, rfl, rfl, rfl, congrArg Move.loadLocal h.symm⟩

/-- An instruction is in its shortest form, or its shortest form has no operand. -/
theorem canonical_cases (i : Instruction κ) :
    (i.isLongLoad = false ∧ i.canonical = i) ∨ (i.isLongLoad = true ∧ i.Shortens i.canonical) := by
  obtain ⟨op, operand⟩ := i
  cases operand with
  | byte index =>
    cases op with
    | ldargS =>
      rcases loadArgument_cases (κ := κ) index with ⟨hlarge, hload⟩ | ⟨hsmall, hload⟩
      · exact .inl ⟨by simpa [isLongLoad] using hlarge, hload⟩
      · exact .inr ⟨by simpa [isLongLoad] using hsmall, hload⟩
    | ldlocS =>
      rcases loadLocal_cases (κ := κ) index with ⟨hlarge, hload⟩ | ⟨hsmall, hload⟩
      · exact .inl ⟨by simpa [isLongLoad] using hlarge, hload⟩
      · exact .inr ⟨by simpa [isLongLoad] using hsmall, hload⟩
    | _ => exact .inl ⟨rfl, rfl⟩
  | _ => cases op <;> exact .inl ⟨rfl, rfl⟩

variable {i j : Instruction κ}

theorem Shortens.isFitting (h : i.Shortens j) : i.isFitting = true := by
  obtain ⟨index, hindex⟩ := h.index
  simp [Instruction.isFitting, hindex, h.kind_eq, Operand.kind]

theorem Shortens.bare_isFitting (h : i.Shortens j) : j.isFitting = true := by
  rw [h.bare]
  simp [Instruction.isFitting, Instruction.bare, h.bare_kind_eq, Operand.kind]

/-- An instruction whose operand does not fit has no shorter form. -/
theorem canonical_of_not_isFitting (h : i.isFitting = false) : i.canonical = i := by
  rcases i.canonical_cases with ⟨-, hsame⟩ | ⟨-, hshort⟩
  · exact hsame
  · cases h.symm.trans hshort.isFitting

theorem isFitting_canonical (i : Instruction κ) : i.canonical.isFitting = i.isFitting := by
  rcases i.canonical_cases with ⟨-, hsame⟩ | ⟨-, hshort⟩
  · rw [hsame]
  · rw [hshort.isFitting, hshort.bare_isFitting]

theorem isMeasurable_canonical (i : Instruction κ) :
    i.canonical.op.isMeasurable = i.op.isMeasurable := by
  rcases i.canonical_cases with ⟨-, hsame⟩ | ⟨-, hshort⟩
  · rw [hsame]
  · rw [isMeasurable_of_isFitting hshort.isFitting, isMeasurable_of_isFitting hshort.bare_isFitting]

theorem canonical_of_not_isMeasurable (h : i.op.isMeasurable = false) : i.canonical = i := by
  refine canonical_of_not_isFitting (Bool.eq_false_iff.mpr fun hfits => ?_)
  cases h.symm.trans (isMeasurable_of_isFitting hfits)

end Instruction

/-! ### Refusals -/

/-- The draft with all instructions in their shortest form. -/
def Draft.canonical (d : Draft κ) : Draft κ := ⟨d.code.map Instruction.canonical, d.locals⟩

/-- A search that does not see the form of an instruction, and finds one that has only one form. -/
theorem find?_canonical {fault : Instruction κ → Bool} (hform : ∀ i, fault i.canonical = fault i)
    (honly : ∀ i, fault i = true → i.canonical = i) (is : List (Instruction κ)) :
    (is.map Instruction.canonical).find? fault = is.find? fault := by
  have hsearch : fault ∘ Instruction.canonical = fault := funext hform
  rw [List.find?_map, hsearch]
  cases hfind : is.find? fault with
  | none => rfl
  | some i => rw [Option.map_some, honly i (List.find?_some hfind)]

theorem finish_canonical_error_iff [BEq κ] (d : Draft κ) (e : BuildError) :
    d.canonical.finish = .error e ↔ d.finish = .error e := by
  have hmeasure : d.canonical.code.find? (fun i => !i.op.isMeasurable)
      = d.code.find? (fun i => !i.op.isMeasurable) :=
    find?_canonical (fun i => by rw [i.isMeasurable_canonical])
      (fun i h => Instruction.canonical_of_not_isMeasurable (by simpa using h)) d.code
  have hfit : d.canonical.code.find? (fun i => !i.isFitting) = d.code.find? (fun i => !i.isFitting) :=
    find?_canonical (fun i => by rw [i.isFitting_canonical])
      (fun i h => Instruction.canonical_of_not_isFitting (by simpa using h)) d.code
  rw [finish_error_iff, finish_error_iff, hmeasure, hfit]

/-! ### Code -/

/-- Two outcomes of decoding: instructions that do the same one by one, or the same error up to its
offset. -/
inductive Decoded.Alike :
    Except RunError (List (Placed κ)) → Except RunError (List (Placed κ)) → Prop
  | ok {ps ps' : List (Placed κ)} :
      ps'.map (·.instruction.move) = ps.map (·.instruction.move) → Alike (.ok ps) (.ok ps')
  | error (e : RunError) (offset : Nat) : Alike (.error e) (.error (e.withOffset offset))

/-- One more instruction at the front that does the same. -/
theorem Decoded.Alike.cons {r r' : Except RunError (List (Placed κ))} (h : Decoded.Alike r r')
    {p p' : Placed κ} (hmove : p'.instruction.move = p.instruction.move) :
    Decoded.Alike (r.map (p :: ·)) (r'.map (p' :: ·)) := by
  cases h with
  | ok hmoves => exact .ok (by rw [List.map_cons, List.map_cons, hmove, hmoves])
  | error e offset => exact .error e offset

/-- An operand that refers to nothing is reported at the offset of its instruction. -/
theorem Tables.read_displace (t : Tables κ) (offset offset' : Nat) (bytes : List UInt8)
    (kind : OperandKind) : t.read offset' bytes kind = displace offset' (t.read offset bytes kind) := by
  have hresolve {α : Type} (find? : UInt32 → Option α) (wrap : α → Operand κ) :
      (resolve offset' find? bytes).map wrap
        = displace offset' ((resolve offset find? bytes).map wrap) := by
    unfold resolve
    dsimp only
    split <;> rfl
  cases kind with
  | string | method | type => exact hresolve _ _
  | _ => rfl

section Encoding

variable [BEq κ] {t u : Tables κ} {i : Instruction κ}

/-- The short form of an instruction leaves the same tables. It takes one byte less if it is another
form, and what is read back does the same. -/
theorem encode_canonical {bytes : List UInt8} (h : t.encode i = .ok (bytes, u)) :
    ∃ bytes', t.encode i.canonical = .ok (bytes', u) ∧
      bytes'.length + (if i.isLongLoad then 1 else 0) = bytes.length ∧
      ∀ (v : Tables κ) (offset offset' : Nat) (rest rest' : List UInt8),
        Decoded.Alike (v.decode (offset + bytes.length) rest)
          (v.decode (offset' + bytes'.length) rest') →
        Decoded.Alike (v.decode offset (bytes ++ rest)) (v.decode offset' (bytes' ++ rest')) := by
  obtain ⟨hkind, rfl, rfl⟩ := Tables.encode_eq_ok h
  rcases i.canonical_cases with ⟨hlong, hsame⟩ | ⟨hlong, hshort⟩
  · -- The same bytes are read in the same way, or refused at the one offset or the other.
    refine ⟨_, by rw [hsame]; exact h, by simp [hlong], ?_⟩
    intro v offset offset' rest rest' hrest
    have hlen := t.length_write i.operand
    rw [hkind] at hlen
    have hread' := v.read_displace offset offset' (t.write i.operand).1 i.op.operandKind
    cases hread : v.read offset (t.write i.operand).1 i.op.operandKind with
    | error e =>
      rw [hread] at hread'
      rw [Tables.decode_of_read_error hlen hread, Tables.decode_of_read_error hlen hread']
      exact .error e offset'
    | ok o =>
      rw [hread] at hread'
      rw [Tables.decode_of_read hlen hread, Tables.decode_of_read hlen hread']
      exact hrest.cons rfl
  · -- Both forms are read back as they are.
    obtain ⟨index, hindex⟩ := hshort.index
    have hnone : i.canonical.operand = .none := congrArg Instruction.operand hshort.bare
    refine ⟨i.canonical.op.encoding ++ (t.write i.canonical.operand).1, ?_, ?_, ?_⟩
    · rw [encode_of_isFitting t hshort.bare_isFitting, hnone, hindex]
      rfl
    · rw [if_pos hlong, List.length_append, List.length_append, ← OpCode.size, ← OpCode.size,
        hshort.size_eq, hnone, hindex]
      rfl
    · intro v offset offset' rest rest' hrest
      have hspelled : i.Spelled v (i.op.encoding ++ (t.write i.operand).1) :=
        ⟨hkind, _, rfl, by rw [hindex]; exact .byte index⟩
      have hspelled' : i.canonical.Spelled v
          (i.canonical.op.encoding ++ (t.write i.canonical.operand).1) :=
        ⟨kind_of_isFitting hshort.bare_isFitting, _, rfl, by rw [hnone]; exact .none⟩
      rw [hspelled.decode_append, hspelled'.decode_append]
      exact hrest.cons hshort.move_eq

/-- So do the short forms of instructions in sequence. -/
theorem encodeAll_canonical {is : List (Instruction κ)} {code : List UInt8}
    (h : t.encodeAll is = .ok (code, u)) :
    ∃ code', t.encodeAll (is.map Instruction.canonical) = .ok (code', u) ∧
      code'.length + is.countP Instruction.isLongLoad = code.length ∧
      ∀ (v : Tables κ) (offset offset' : Nat),
        Decoded.Alike (v.decode offset code) (v.decode offset' code') := by
  induction is generalizing t code with
  | nil =>
    cases h
    refine ⟨[], rfl, rfl, fun v offset offset' => ?_⟩
    rw [Tables.decode, Tables.decode]
    exact .ok rfl
  | cons i is ih =>
    obtain ⟨bytes, rest, w, hhead, htail, rfl⟩ := Tables.encodeAll_cons h
    obtain ⟨bytes', hhead', hbytes, hread⟩ := encode_canonical hhead
    obtain ⟨rest', htail', hrest, hdecode⟩ := ih htail
    refine ⟨bytes' ++ rest', Tables.encodeAll_cons_of hhead' htail', ?_,
      fun v offset offset' => hread v _ _ _ _ (hdecode v _ _)⟩
    rw [List.length_append, List.length_append, List.countP_cons]
    omega

/-- A draft that is finished is finished in short form too. -/
theorem finish_canonical {d : Draft κ} {b : Body κ} (h : d.finish = .ok b) :
    ∃ b', d.canonical.finish = .ok b' ∧ b'.locals = b.locals ∧ b'.tables = b.tables ∧
      b'.code.length + d.code.countP Instruction.isLongLoad = b.code.length ∧
      Decoded.Alike b.decode b'.decode := by
  obtain ⟨hcode, hlocals⟩ := Draft.finish_eq_ok h
  obtain ⟨code', hcode', hlength, hdecode⟩ := encodeAll_canonical hcode
  refine ⟨⟨code', d.locals.types, b.tables⟩, ?_, hlocals.symm, rfl, hlength, hdecode _ 0 0⟩
  rw [Draft.finish_eq, Draft.canonical, Tables.encodeAll_measure hcode']
  show (Tables.empty.encodeAll (d.code.map Instruction.canonical) >>= _) = _
  rw [hcode']
  rfl

/-- Code that cannot be read back has a table that is too long, and is refused at a token. -/
theorem unread_of_decode {d : Draft κ} {b : Body κ} (h : d.finish = .ok b) {e : RunError}
    (hdecode : b.decode = .error e) :
    ¬ b.tables.Addressable ∧ ∃ offset token, e = .badToken offset token := by
  have hover : ¬ b.tables.Addressable := by
    intro hfits
    obtain ⟨hcode, -⟩ := Draft.finish_eq_ok h
    obtain ⟨chunks, ps, hchunks, hlaid, -⟩ := Tables.encodeAll_laid hcode hfits 0
    rw [Body.decode, hchunks, hlaid.decode] at hdecode
    cases hdecode
  obtain ⟨offset, token, htoken⟩ := Draft.decode_of_not_addressable h hover
  cases hdecode.symm.trans htoken
  exact ⟨hover, offset, token, rfl⟩

end Encoding

/-! ### Calls -/

open Machine Machine.Execution

/-- Two calls with the same arguments are answered alike: in the same way, or with the same error at
another offset. The offset can differ if both have raised the error in their own frames, at the same
instruction, or if both bodies are refused by the decoder, since a table is too long for tokens. -/
inductive Procedure.AnswersAlike (g g' : Procedure) (args : List Value) (s s' : Store) : Prop
  | same : ((g'.invoke args).runOn s').1 = ((g.invoke args).runOn s).1 → AnswersAlike g g' args s s'
  | raised {x y : Execution} {k : Nat} {e : RunError} {offset : Nat} : x.IsRunOf g args →
      y.IsRunOf g' args → x.Raises k e → y.Raises k (e.withOffset offset) →
      ((g.invoke args).runOn s).1 = .error e →
      ((g'.invoke args).runOn s').1 = .error (e.withOffset offset) → AnswersAlike g g' args s s'
  | unread {body body' : Body Callee} {offset offset' : Nat} {token : UInt32} :
      g.body? = some body → g'.body? = some body' → ¬ body.tables.Addressable →
      body.decode = .error (.badToken offset token) →
      body'.decode = .error (.badToken offset' token) →
      ((g.invoke args).runOn s).1 = .error (.badToken offset token) →
      ((g'.invoke args).runOn s').1 = .error (.badToken offset' token) → AnswersAlike g g' args s s'

/-- A body that cannot be read ends the call. -/
theorem gives_invoke_unread {header : Header} {signature : Signature} {body : Body Callee}
    {args received : List Value} {e : RunError}
    (hreceive : signature.receive header.name args = .ok received) (hdecode : body.decode = .error e) :
    ((Procedure.generated header signature body).invoke args).Gives (.error e) := by
  have hlinked := Task.gives_decode header.id (linkBody body)
  rw [linkBody_eq, Body.decode_map, hdecode, ← linkBody_eq] at hlinked
  rw [Procedure.invoke, hreceive]
  exact (Task.gives_ofExcept _).bind_ok (hlinked.bind (g := fun _ => .error e) (by simp [Except.map]))

/-- What a callee answers does not depend on the store. -/
theorem Callee.settled_link (callee : Callee) : callee.link.Settled := by
  cases callee with
  | procedure target => exact target.settled_invoke
  | wrapper t => exact fun args => Task.settled_ofExcept _

/-- Linked code makes the moves of the code, with the calls to its callees. -/
theorem moves_linked (ps : List (Placed Callee)) :
    (ps.map (Placed.map Callee.link)).map (·.instruction.move)
      = (ps.map (·.instruction.move)).map (Move.map Callee.link) := by
  rw [List.map_map, List.map_map]
  exact List.map_congr_left fun p _ => p.instruction.move_map Callee.link

section Bodies

variable {header header' : Header} {signature : Signature} {b b' : Body Callee}

/-- Runs of bodies whose instructions do the same mirror each other. -/
theorem mirrors_ofBody {ps ps' : List (Placed Callee)} (hname : header'.name = header.name)
    (hlocals : b'.locals = b.locals)
    (hmoves : ps'.map (·.instruction.move) = ps.map (·.instruction.move)) (received : List Value)
    (s s' : Store) :
    (ofBody header signature b ps received s).Mirrors
      (ofBody header' signature b' ps' received s') where
  procedure_eq := hname
  result_eq := rfl
  args_eq := rfl
  locals_eq := hlocals
  moves_eq := by
    show (ps'.map (Placed.map Callee.link)).map _ = (ps.map (Placed.map Callee.link)).map _
    rw [moves_linked, moves_linked, hmoves]
  settled := by
    intro p hp link hlink
    obtain ⟨q, -, rfl⟩ := List.mem_map.mp hp
    obtain ⟨offset, op, operand⟩ := q
    cases operand <;> cases hlink
    exact Callee.settled_link _

/-- Bodies that are read alike answer alike. -/
theorem answersAlike_of_decode (hname : header'.name = header.name) (hlocals : b'.locals = b.locals)
    (hdecode : Decoded.Alike b.decode b'.decode)
    (hunread : ∀ e, b.decode = .error e →
      ¬ b.tables.Addressable ∧ ∃ offset token, e = .badToken offset token)
    (args : List Value) (s s' : Store) :
    (Procedure.generated header signature b).AnswersAlike (.generated header' signature b') args s s' := by
  cases hreceive : signature.receive header.name args with
  | error e =>
    refine .same ?_
    have hreceive' : signature.receive header'.name args = .error e := by rw [hname, hreceive]
    rw [Procedure.runOn_invoke_refused (p := .generated header' signature b') hreceive' s',
      Procedure.runOn_invoke_refused (p := .generated header signature b) hreceive s]
  | ok received =>
    have hreceive' : signature.receive header'.name args = .ok received := by rw [hname, hreceive]
    generalize hr : b.decode = r at hdecode
    generalize hr' : b'.decode = r' at hdecode
    cases hdecode with
    | error e offset =>
      obtain ⟨hover, place, token, rfl⟩ := hunread e hr
      exact .unread rfl rfl hover hr hr' (gives_invoke_unread hreceive hr s)
        (gives_invoke_unread hreceive' hr' s')
    | @ok ps ps' hmoves =>
      -- Both bodies are run on the same arguments, and the second run mirrors the first.
      obtain ⟨t, houtcome⟩ := exists_ofBody_of_invoke header hreceive hr s
      obtain ⟨t', houtcome'⟩ := exists_ofBody_of_invoke header' hreceive' hr' s'
      have hmirrors : (ofBody header signature b ps received t).Mirrors
          (ofBody header' signature b' ps' received t') := mirrors_ofBody hname hlocals hmoves ..
      rcases hmirrors.outcome_cases with hsame | ⟨k, e, offset, hraises, hraises'⟩
      · exact .same (houtcome'.symm.trans (hsame.trans houtcome))
      · exact .raised ⟨header, signature, b, ps, received, t, rfl, hreceive, hr, rfl⟩
          ⟨header', signature, b', ps', received, t', rfl, hreceive', hr', rfl⟩ hraises hraises'
          (houtcome.symm.trans hraises.1) (houtcome'.symm.trans hraises'.1)

end Bodies

/-- **Short forms mean the same.** With all indexed loads in their shortest form a draft is refused with
an error exactly if it is refused with that error as it is. If it is finished, its locals and its tables
are the same, and its code is shorter by one byte for each load of one of the first four arguments or
locals by its index. Procedures of the same name with the one and the other body answer alike, whatever
their arguments and the stores. -/
theorem canonical_answersAlike (d : Draft Callee) :
    (∀ e, d.canonical.finish = .error e ↔ d.finish = .error e) ∧
    ∀ b, d.finish = .ok b → ∃ b', d.canonical.finish = .ok b' ∧ b'.locals = b.locals ∧
      b'.tables = b.tables ∧
      b'.code.length + d.code.countP Instruction.isLongLoad = b.code.length ∧
      ∀ (header header' : Header) (signature : Signature) (args : List Value) (s s' : Store),
        header'.name = header.name → (Procedure.generated header signature b).AnswersAlike
          (.generated header' signature b') args s s' := by
  refine ⟨finish_canonical_error_iff d, fun b hb => ?_⟩
  obtain ⟨b', hfinish, hlocals, htables, hlength, hdecode⟩ := finish_canonical hb
  refine ⟨b', hfinish, hlocals, htables, hlength, ?_⟩
  intro header header' signature args s s' hname
  exact answersAlike_of_decode hname hlocals hdecode (fun e => unread_of_decode hb) args s s'

/-- The load of an argument that is not there is refused one byte earlier, since the load before it is
one byte shorter. -/
theorem canonical_answersAlike_missing :
    ∃ (d : Draft Callee) (b b' : Body Callee) (signature : Signature),
      d = ⟨[⟨.ldargS, .byte 0⟩, .bare .pop, ⟨.ldargS, .byte 9⟩, .bare .ret], .empty⟩ ∧
      signature = ⟨[.ofType .i32], .i32⟩ ∧ d.finish = .ok b ∧ d.canonical.finish = .ok b' ∧
      b'.code.length + 1 = b.code.length ∧
      (Procedure.generated ⟨1, "f", 0⟩ signature b).AnswersAlike (.generated ⟨2, "f", 0⟩ signature b')
        [.i32 7] .empty .empty ∧
      (((Procedure.generated ⟨1, "f", 0⟩ signature b).invoke [.i32 7]).runOn .empty).1
        = .error (.badAddress 3) ∧
      (((Procedure.generated ⟨2, "f", 0⟩ signature b').invoke [.i32 7]).runOn .empty).1
        = .error (.badAddress 2) := by
  obtain ⟨d, hd⟩ : ∃ d : Draft Callee,
    d = ⟨[⟨.ldargS, .byte 0⟩, .bare .pop, ⟨.ldargS, .byte 9⟩, .bare .ret], .empty⟩ := ⟨_, rfl⟩
  obtain ⟨b, hb⟩ : ∃ b, d.finish = .ok b := by
    subst hd
    exact ⟨_, rfl⟩
  obtain ⟨b', hb', -, -, hlength, hanswers⟩ := (canonical_answersAlike d).2 b hb
  have hcount : d.code.countP Instruction.isLongLoad = 1 := by
    subst hd
    rfl
  rw [hcount] at hlength
  refine ⟨d, b, b', _, hd, rfl, hb, hb', hlength, hanswers _ _ _ _ _ _ rfl, ?_, ?_⟩
  · subst hd
    cases hb
    cbv
  · subst hd
    cases hb'
    cbv

/-! ### Too many texts -/

/-- An instruction, and then one load for each of the texts. -/
def loadTexts (i : Instruction Callee) (texts : List String) : List (Instruction Callee) :=
  i :: texts.map fun text => ⟨.ldstr, .string text⟩

section Texts

variable {i : Instruction Callee} {texts : List String}

theorem take_loadTexts (i : Instruction Callee) (texts : List String) (k : Nat) :
    (loadTexts i texts).take (k + 1) = loadTexts i (texts.take k) := by
  rw [loadTexts, List.take_succ_cons, ← List.map_take, ← loadTexts]

theorem measure_loadTexts {n : Nat} (hi : i.length = .ok n) (texts : List String) :
    measure (loadTexts i texts) = .ok (n + 5 * texts.length) := by
  have htexts : measure (texts.map fun text => (⟨.ldstr, .string text⟩ : Instruction Callee))
      = .ok (5 * texts.length) := by
    induction texts with
    | nil => rfl
    | cons text texts ih =>
      rw [List.map_cons, measure, ih, List.length_cons]
      show Except.ok (5 + 5 * texts.length) = _
      rw [Nat.mul_succ, Nat.add_comm]
  rw [loadTexts, measure, hi, htexts]
  rfl

/-- Of instructions that load different texts, the tables list just the texts. -/
theorem encodeAll_loadTexts {i : Instruction Callee} (hi : i.operand.kind ∉ tokenKinds)
    (hnodup : texts.Nodup) {code : List UInt8} {u : Tables Callee}
    (h : Tables.empty.encodeAll (loadTexts i texts) = .ok (code, u)) : u = ⟨texts, [], []⟩ := by
  have hnone : i.operand.string? = none ∧ i.operand.method? = none ∧ i.operand.type? = none := by
    cases hoperand : i.operand with
    | string | method | type => simp [hoperand, Operand.kind, tokenKinds] at hi
    | _ => exact ⟨rfl, rfl, rfl⟩
  have hcons {β : Type} (f : Instruction Callee → Option β) (hf : f i = none) :
      (loadTexts i texts).filterMap f = texts.filterMap fun text => f ⟨.ldstr, .string text⟩ := by
    rw [loadTexts, List.filterMap_cons_none hf, List.filterMap_map]
    rfl
  have hstrings : usedStrings (loadTexts i texts) = texts :=
    (hcons (·.operand.string?) hnone.1).trans List.filterMap_some
  have hmethods : usedMethods (loadTexts i texts) = [] :=
    (hcons (·.operand.method?) hnone.2.1).trans (List.filterMap_eq_nil_iff.mpr fun _ _ => rfl)
  have htypes : usedTypes (loadTexts i texts) = [] :=
    (hcons (·.operand.type?) hnone.2.2).trans (List.filterMap_eq_nil_iff.mpr fun _ _ => rfl)
  -- The texts are their own first uses.
  have hdistinct : Distinct ([] ++ texts) := hnodup.imp fun hne => by simpa using hne
  rw [Tables.encodeAll_useAll h, hstrings, hmethods, htypes]
  simp only [Tables.empty, useAll_none, hdistinct.useAll_eq, List.nil_append]

/-- If there are more texts than tokens, the decoder refuses the load of the first text that has none. -/
theorem decode_loadTexts {n : Nat} (hi : i.operand.kind ∉ tokenKinds) (hn : i.length = .ok n)
    (hnodup : texts.Nodup) (hcount : texts.length = Token.rowLimit) {locals : Locals}
    {b : Body Callee} (h : Draft.finish ⟨loadTexts i texts, locals⟩ = .ok b) :
    ∃ token, b.decode = .error (.badToken (n + 5 * (Token.rowLimit - 1)) token) := by
  have hpos : 0 < Token.rowLimit := by decide
  obtain ⟨hcode, -⟩ := Draft.finish_eq_ok h
  have hover : ¬ b.tables.Addressable := by
    rw [encodeAll_loadTexts hi hnodup hcode]
    intro hfits
    exact Nat.lt_irrefl _ (hcount ▸ hfits.strings)
  obtain ⟨k, front, v, front', v', token, hfront, hfits, hfront', hlong, hdecode⟩ :=
    Tables.encodeAll_overflow hcode Tables.addressable_empty hover 0
  -- The first `k` texts are too many for tokens, and one less are not.
  rw [take_loadTexts] at hfront'
  rw [encodeAll_loadTexts hi (hnodup.sublist (List.take_sublist ..)) hfront'] at hlong
  have hmany : Token.rowLimit ≤ k := by
    by_contra hless
    refine hlong ⟨?_, hpos, hpos⟩
    rw [List.length_take]
    omega
  cases k with
  | zero => omega
  | succ k =>
    rw [take_loadTexts] at hfront
    rw [encodeAll_loadTexts hi (hnodup.sublist (List.take_sublist ..)) hfront] at hfits
    have hfew := hfits.strings
    have hmeasure := Tables.encodeAll_measure hfront
    rw [measure_loadTexts hn] at hmeasure
    have hfront : n + 5 * (texts.take k).length = front.length := Except.ok.inj hmeasure
    rw [List.length_take, hcount] at hfew hfront
    have hk : min k Token.rowLimit = Token.rowLimit - 1 := by omega
    refine ⟨token, ?_⟩
    rw [← hk, hfront, ← Nat.zero_add front.length]
    exact hdecode

end Texts

theorem toString_nat_injective : Function.Injective (toString : Nat → String) := by
  intro m n h
  rw [Nat.toString_eq_repr, Nat.toString_eq_repr, Nat.repr_eq_ofList_toDigits,
    Nat.repr_eq_ofList_toDigits, String.ofList_inj] at h
  have hm : Nat.ofDigitChars 10 (Nat.toDigits 10 m) 0 = m := Nat.ofDigitChars_ten_toDigits
  rw [h, Nat.ofDigitChars_ten_toDigits] at hm
  exact hm.symm

/-- There is one text more than tokens can name. The decoder refuses the load of the last one, before
there is a frame, and it does so one byte earlier if the load at the front is in its short form. -/
theorem canonical_offset_without_frame :
    ∃ (d : Draft Callee) (b b' : Body Callee) (g g' : Procedure) (token : UInt32),
      d = ⟨⟨.ldargS, .byte 0⟩ :: ((List.range (2 ^ 24)).map toString).map
        fun text => ⟨.ldstr, .string text⟩, .empty⟩ ∧
      d.finish = .ok b ∧ d.canonical.finish = .ok b' ∧
      g = .generated ⟨1, "f", 0⟩ ⟨[.ofType .i32], .unit⟩ b ∧
      g' = .generated ⟨2, "f", 0⟩ ⟨[.ofType .i32], .unit⟩ b' ∧
      ((g.invoke [.i32 7]).runOn .empty).1 = .error (.badToken 83886077 token) ∧
      ((g'.invoke [.i32 7]).runOn .empty).1 = .error (.badToken 83886076 token) ∧
      (∀ x : Execution, ¬ x.IsRunOf g [.i32 7]) ∧ ∀ x : Execution, ¬ x.IsRunOf g' [.i32 7] := by
  -- The texts are never written out. All that matters is how many there are.
  obtain ⟨texts, htexts⟩ : ∃ texts : List String, texts = (List.range (2 ^ 24)).map toString :=
    ⟨_, rfl⟩
  have hnodup : texts.Nodup := htexts ▸ List.nodup_range.map toString_nat_injective
  have hcount : texts.length = Token.rowLimit := by
    rw [htexts, List.length_map, List.length_range, Token.rowLimit]
    norm_num
  rw [← htexts]
  clear htexts
  obtain ⟨b, hb⟩ : ∃ b, Draft.finish ⟨loadTexts ⟨.ldargS, .byte 0⟩ texts, .empty⟩ = .ok b := by
    refine Draft.exists_finish _ (List.forall_mem_cons.mpr ⟨rfl, ?_⟩)
    exact List.forall_mem_map.mpr fun _ _ => rfl
  obtain ⟨b', hb', -, -, -, halike⟩ := finish_canonical hb
  have hshort : Draft.canonical ⟨loadTexts ⟨.ldargS, .byte 0⟩ texts, .empty⟩
      = ⟨loadTexts (.bare .ldarg0) texts, .empty⟩ := by
    rw [Draft.canonical, loadTexts, List.map_cons, List.map_map]
    rfl
  obtain ⟨token, hdecode⟩ := decode_loadTexts (by decide) (n := 2) rfl hnodup hcount hb
  obtain ⟨token', hdecode'⟩ := decode_loadTexts (by decide) (n := 1) rfl hnodup hcount (hshort ▸ hb')
  have hreceive : Signature.receive ⟨[.ofType .i32], .unit⟩ "f" [.i32 7] = .ok [.i32 7] := by cbv
  have htoken : token' = token := by
    rw [hdecode, hdecode'] at halike
    cases halike
    rfl
  subst htoken
  refine ⟨_, b, b', _, _, token', rfl, hb, hb', rfl, rfl, gives_invoke_unread hreceive hdecode _,
    gives_invoke_unread hreceive hdecode' _, ?_, ?_⟩
  · rintro x ⟨_, _, _, code, _, _, hg, -, hcode, -⟩
    cases hg
    cases hdecode.symm.trans hcode
  · rintro x ⟨_, _, _, code, _, _, hg, -, hcode, -⟩
    cases hg
    cases hdecode'.symm.trans hcode

end CallAdapter
