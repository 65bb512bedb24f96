import ReplayVector.TestVector
import ReplayVector.Proofs.Json.Forms
import ReplayVector.Proofs.Json.Numbers

/-!
# Test vectors are read back as they were written

Each part of a test vector has a faithful form, from the receipts and roots up to the whole
document, which nests four levels deep.

* `TestVector.parse_document`: parsing the document of a vector gives the vector.
* `TestVector.reads_back`: so does parsing the compact text, for what has been read before too.
-/

namespace ReplayVector

open Json

theorem VectorClass.form_faithful : VectorClass.form.Faithful 0 where
  printed _ := printed_ofString "message"
  decoder_toJson _ _ _ := rfl

theorem bareInteger_faithful : bareInteger.Faithful 0 where
  printed := printed_ofInt
  decoder_toJson n depth _ := by
    have hn := TokenAmount.readInt_repr n
    simp only [bareInteger, ofInt, hn]

/-- A source without a version is read back without one. -/
theorem Provenance.form_faithful : form.Faithful 1 := by
  refine .of_record fields (by decide) (fun _ _ => rfl) fun ⟨source, version⟩ => ?_
  -- an unknown version has no member
  cases version with
  | none => exact ⟨_, _, rfl, .member Form.string_faithful source (.missing .nil), rfl⟩
  | some v =>
    have hversion := Form.string_faithful.option nofun
    exact ⟨_, _, rfl, .member Form.string_faithful source (.member hversion (some v) .nil), rfl⟩

/-- The parts of a vector are records, each read back by its fields. -/
theorem VectorMeta.form_faithful : VectorMeta.form.Faithful 3 := by
  refine .of_record fields (by decide) (fun _ _ => rfl) fun m => ?_
  have hms : fields.Written 2 _ _ :=
    .flat Form.string_faithful m.id <| .member Provenance.form_faithful.array m.provenance .nil
  exact ⟨_, _, rfl, hms, rfl⟩

theorem rootForm_faithful : rootForm.Faithful 2 := by
  refine .of_record rootFields (by decide) (fun _ _ => rfl) fun c => ?_
  have hms : rootFields.Written 1 _ _ := .member Form.cid_faithful c .nil
  exact ⟨_, _, rfl, hms, rfl⟩

theorem messageForm_faithful : messageForm.Faithful 1 := by
  refine .of_record messageFields (by decide) (fun _ _ => rfl) fun bs => ?_
  have hms : messageFields.Written 0 _ _ := .member Form.bytes_faithful bs .nil
  exact ⟨_, _, rfl, hms, rfl⟩

theorem Preconditions.form_faithful : Preconditions.form.Faithful 3 := by
  refine .of_record fields (by decide) (fun _ _ => rfl) fun p => ?_
  have hms : fields.Written 2 _ _ :=
    .flat Form.int64_faithful p.epoch <| .flat bareInteger_faithful p.circSupply <|
    .flat bareInteger_faithful p.baseFee <| .member rootForm_faithful p.stateRoot .nil
  exact ⟨_, _, rfl, hms, rfl⟩

theorem VectorReceipt.form_faithful : VectorReceipt.form.Faithful 1 := by
  refine .of_record fields (by decide) (fun _ _ => rfl) fun r => ?_
  have hms : fields.Written 0 _ _ :=
    .member Form.int64_faithful r.exitCode <| .member Form.bytes_faithful r.returnValue <|
    .member Form.uint64_faithful r.gasUsed .nil
  exact ⟨_, _, rfl, hms, rfl⟩

theorem Postconditions.form_faithful : Postconditions.form.Faithful 3 := by
  refine .of_record fields (by decide) (fun _ _ => rfl) fun p => ?_
  have hms : fields.Written 2 _ _ :=
    .member rootForm_faithful p.stateRoot <|
    .member VectorReceipt.form_faithful.array p.receipts .nil
  exact ⟨_, _, rfl, hms, rfl⟩

namespace TestVector

/-- So is the vector as a whole. -/
theorem form_faithful : form.Faithful 4 := by
  have hmessages : messageForm.array.Faithful 3 := messageForm_faithful.array.mono (by omega)
  refine .of_record fields (by decide) (fun _ _ => rfl) fun v => ?_
  have hms : fields.Written 3 _ _ :=
    .flat VectorClass.form_faithful v.kind <| .member VectorMeta.form_faithful v.info <|
    .flat Form.bytes_faithful v.car <| .member Preconditions.form_faithful v.preconditions <|
    .member hmessages v.applyMessages <|
    .member Postconditions.form_faithful v.postconditions .nil
  exact ⟨_, _, rfl, hms, rfl⟩

/-- Parsing the document of a vector gives the vector. -/
theorem parse_document (v : TestVector) : form.parse v.document = .ok v := by
  have hlevels : 4 < nesting := by decide
  exact form_faithful.parse_pretty hlevels v

/-- Every vector is read back from both layouts, and so is what has been read from any text. -/
theorem reads_back :
    (∀ v, form.parse v.document = .ok v ∧ form.parse (form.print v) = .ok v) ∧
    ∀ s v, form.parse s = .ok v →
      form.parse v.document = .ok v ∧ form.parse (form.print v) = .ok v := by
  have hlevels : 4 < nesting := by decide
  have hboth (v : TestVector) : form.parse v.document = .ok v ∧ form.parse (form.print v) = .ok v :=
    ⟨parse_document v, form_faithful.parse_print hlevels v⟩
  exact ⟨hboth, fun _ v _ => hboth v⟩

end TestVector

end ReplayVector
