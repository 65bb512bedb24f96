import ReplayVector.Chain.Lookup
import ReplayVector.Proofs.Json.Nesting

/-!
# What a node says is read as it was written

Every type that a node is asked for has a faithful form, up to calls. These nest as deep as they
like, so a call is read back exactly if its text stays inside the limit of the reader.

* `CallTrace.decoderWithin_toJson`, `CallTrace.levels_lt_of_decoderWithin`: calls.
* `forms_lossless`: all forms.
-/

namespace ReplayVector

open Json

-- ---------------------------------------------------------------------------
-- Records
-- ---------------------------------------------------------------------------

/-- A message is written field by field, and nothing in its members is left to sort. -/
theorem Message.form_written :
    ∃ make, (∀ depth j, form.decoder depth j = (fields.read depth j).bind make) ∧
      ∀ m, ∃ ms slots, form.toJson m = record ms ∧
        ms.map (fun (name, value) => (name, value.sorted)) = ms ∧
        fields.Written 0 ms slots ∧ make slots = .ok m := by
  refine ⟨_, fun _ _ => rfl, fun m => ?_⟩
  have hms : fields.Written 0 _ _ :=
    .member Form.uint64_faithful m.version <| .member Form.address_faithful m.receiver <|
    .member Form.address_faithful m.sender <| .member Form.uint64_faithful m.sequence <|
    .member Form.tokenAmount_faithful m.value <| .member Form.uint64_faithful m.gasLimit <|
    .member Form.tokenAmount_faithful m.gasFeeCap <|
    .member Form.tokenAmount_faithful m.gasPremium <| .member Form.uint64_faithful m.method <|
    .member (Form.bytesUpTo_faithful maxParams) m.params .nil
  exact ⟨_, _, rfl, rfl, hms, rfl⟩

/-- So a message is read back. -/
theorem Message.form_faithful : form.Faithful 1 := by
  obtain ⟨make, hdecoder, hwritten⟩ := form_written
  refine .of_record fields (by decide) hdecoder fun m => ?_
  obtain ⟨ms, slots, hjson, -, hms, hmake⟩ := hwritten m
  exact ⟨ms, slots, hjson, hms, hmake⟩

/-- And so are the other records of a chain, each by its fields. -/
theorem Receipt.form_faithful : form.Faithful 2 := by
  refine .of_record fields (by decide) (fun _ _ => rfl) fun r => ?_
  have hms : fields.Written 1 _ _ :=
    .flat Form.uint32_faithful r.exitCode <| .flat Form.bytes_faithful r.returnData <|
    .flat Form.uint64_faithful r.gasUsed <|
    .member (Form.cid_faithful.option nofun) r.eventsRoot .nil
  exact ⟨_, _, rfl, hms, rfl⟩

theorem BlockHeader.form_faithful : form.Faithful 3 := by
  have hcid : Form.cid.Faithful 2 := Form.cid_faithful.mono (by omega)
  refine .of_record fields (by decide) (fun _ _ => rfl) fun h => ?_
  have hms : fields.Written 2 _ _ :=
    .flat Form.address_faithful h.miner <| .member Form.cid_faithful.list h.parents <|
    .flat Form.int64_faithful h.height <| .member hcid h.stateRoot <| .member hcid h.receipts <|
    .member hcid h.messages <| .flat Form.uint64_faithful h.timestamp <|
    .flat Form.tokenAmount_faithful h.parentBaseFee .nil
  exact ⟨_, _, rfl, hms, rfl⟩

theorem TipsetKey.form_faithful : form.Faithful 2 where
  printed k := Form.cid_faithful.array.printed k.cids
  decoder_toJson k depth hd := by
    have hcids := Form.cid_faithful.array.decoder_toJson k.cids depth hd
    show (Form.cid.array.decoder depth (Form.cid.array.toJson k.cids) >>= _) = _
    rw [hcids]
    rfl

/-- The parts of a tipset describe it. -/
theorem Tipset.ofParts_self (t : Tipset) : ofParts t.key t.headers t.height = .ok t := by
  have hheaders : ofHeaders t.key t.first t.rest = .ok t := by
    rw [ofHeaders, dif_pos t.length_eq, dif_pos t.agree]
  show (ofHeaders t.key t.first t.rest >>= fun t' =>
    if t'.height = t.height then .ok t'
    else .error (.height t.key.toString t.height.toInt t'.height.toInt)) = _
  rw [hheaders]
  exact if_pos rfl

theorem Tipset.form_faithful : form.Faithful 5 := by
  have hkey : TipsetKey.form.Faithful 4 := TipsetKey.form_faithful.mono (by omega)
  refine .of_record fields (by decide) (fun _ _ => rfl) fun t => ?_
  have hms : fields.Written 4 _ _ :=
    .member hkey t.key <| .member BlockHeader.form_faithful.list t.headers <|
    .flat Form.int64_faithful t.height .nil
  refine ⟨_, _, rfl, hms, ?_⟩
  simp only [required, bind, Except.bind, ofParts_self]

theorem MessageLookup.form_faithful : form.Faithful 3 := by
  refine .of_record fields (by decide) (fun _ _ => rfl) fun l => ?_
  have hms : fields.Written 2 _ _ :=
    .member (Form.cid_faithful.mono (by omega)) l.message <|
    .member Receipt.form_faithful l.receipt <| .member TipsetKey.form_faithful l.tipset <|
    .flat Form.int64_faithful l.height .nil
  exact ⟨_, _, rfl, hms, rfl⟩

theorem NamedMessage.form_faithful : form.Faithful 2 := by
  refine .of_record fields (by decide) (fun _ _ => rfl) fun m => ?_
  have hms : fields.Written 1 _ _ :=
    .member Form.cid_faithful m.cid <| .member Message.form_faithful m.message .nil
  exact ⟨_, _, rfl, hms, rfl⟩

-- ---------------------------------------------------------------------------
-- Calls
-- ---------------------------------------------------------------------------

namespace CallTrace

/-- A call takes a level for itself and one for the list of its subcalls or for its parties. -/
theorem levels_call (sender receiver : Address) (subcalls : List CallTrace) :
    (toJson (.call sender receiver subcalls)).levels =
      levelsOfItems (toJsonList subcalls) + 2 := by
  cases subcalls with
  | nil => rfl
  | cons t ts =>
    show max 1 (max (levelsOfItems (toJsonList (t :: ts)) + 1) 0) + 1 = _
    omega

/-- The form of the parties to a call. -/
def partiesForm : Form (Address × Address) where
  toJson p := record [("From", Form.address.toJson p.1), ("To", Form.address.toJson p.2)]
  decoder := parties

theorem parties_faithful : partiesForm.Faithful 1 := by
  refine .of_record partyFields (by decide) (fun _ _ => rfl) fun p => ?_
  have hms : partyFields.Written 0 _ _ :=
    .member Form.address_faithful p.1 <| .member Form.address_faithful p.2 .nil
  exact ⟨_, _, rfl, hms, rfl⟩

/-- The fields of a call whose subcalls are read by a decoder. -/
def fieldsWith (d : Decoder CallTrace) : Fields [Address × Address, List CallTrace] :=
  .cons ⟨"Msg", parties⟩ <| .cons ⟨"Subcalls", nullableList d⟩ .nil

/-- A call is read from its parties and subcalls. -/
private theorem read_call (sender receiver : Address) {subcalls : List CallTrace}
    {d : Decoder CallTrace} {depth : Nat} (hd : 2 < depth)
    (hsubcalls : nullableList d (depth - 1)
      (if subcalls.isEmpty then .null else .array (toJsonList subcalls)) = .ok subcalls) :
    (fieldsWith d).read depth (toJson (.call sender receiver subcalls)) =
      .ok (some (sender, receiver), some subcalls, ()) := by
  have hparties := parties_faithful.decoder_toJson (sender, receiver) (depth - 1) (by omega)
  have hnames : (fieldsWith d).names.Nodup := by
    show ["Msg", "Subcalls"].Nodup
    decide
  rw [toJson]
  exact Fields.read_record (by omega) hnames (.member hparties (.member hsubcalls .nil))

mutual

/-- A call is printed by forms, as all its subcalls are. -/
theorem printed_toJson (t : CallTrace) : Printed t.toJson := by
  match t with
  | .call sender receiver subcalls =>
    rw [toJson]
    apply printed_record
    simp only [List.forall_mem_cons, List.not_mem_nil, false_implies, implies_true, and_true]
    refine ⟨parties_faithful.printed (sender, receiver), ?_⟩
    split
    · exact fun _ => Spells.null
    · exact printed_array (printed_toJsonList subcalls)

theorem printed_toJsonList (ts : List CallTrace) : ∀ j ∈ toJsonList ts, Printed j := by
  match ts with
  | [] => exact fun _ hj => absurd hj List.not_mem_nil
  | t :: ts => exact List.forall_mem_cons.mpr ⟨printed_toJson t, printed_toJsonList ts⟩

end

mutual

/-- A call that nests less deep than what is left of the limit is read back. -/
theorem decoderWithin_toJson (t : CallTrace) {calls depth : Nat} (hcalls : depth ≤ calls)
    (hlevels : t.toJson.levels < depth) : decoderWithin calls depth t.toJson = .ok t := by
  -- on the call; the number of calls left shrinks with the depth, but not as fast
  match t with
  | .call sender receiver subcalls =>
    rw [levels_call] at hlevels
    obtain ⟨calls, rfl⟩ : ∃ n, calls = n + 1 := ⟨calls - 1, by omega⟩
    have hsubcalls : nullableList (decoderWithin calls) (depth - 1)
        (if subcalls.isEmpty then .null else .array (toJsonList subcalls)) = .ok subcalls := by
      cases subcalls with
      | nil => rfl
      | cons t ts =>
        have hitems : (toJsonList (t :: ts)).mapM (decoderWithin calls (depth - 1 - 1)) =
            .ok (t :: ts) := mapM_decoderWithin (t :: ts) (by omega) (by omega)
        show (enter (depth - 1) >>= fun depth =>
          (toJsonList (t :: ts)).mapM (decoderWithin calls depth)) = _
        rw [enter_of_lt (by omega)]
        exact hitems
    have hread := read_call sender receiver (show 2 < depth by omega) hsubcalls
    show ((fieldsWith (decoderWithin calls)).read depth _ >>= _) = _
    rw [hread]
    rfl

theorem mapM_decoderWithin (ts : List CallTrace) {calls depth : Nat} (hcalls : depth ≤ calls)
    (hlevels : levelsOfItems (toJsonList ts) < depth) :
    (toJsonList ts).mapM (decoderWithin calls depth) = .ok ts := by
  match ts with
  | [] => rfl
  | t :: ts =>
    rw [toJsonList, levelsOfItems] at hlevels
    rw [toJsonList, List.mapM_cons, decoderWithin_toJson t hcalls (by omega),
      mapM_decoderWithin ts hcalls (by omega)]
    rfl

end

private theorem levelsOfItems_lt {ts : List CallTrace} {depth : Nat} (hdepth : 0 < depth)
    (h : ∀ t ∈ ts, t.toJson.levels < depth) : levelsOfItems (toJsonList ts) < depth := by
  induction ts with
  | nil => exact hdepth
  | cons t ts ih =>
    obtain ⟨ht, hts⟩ := List.forall_mem_cons.mp h
    have := ih hts
    rw [toJsonList, levelsOfItems]
    omega

/-- A call that has been read nests less deep than what was left of the limit. -/
theorem levels_lt_of_decoderWithin {calls depth : Nat} {j : Json} {t : CallTrace}
    (h : decoderWithin calls depth j = .ok t) : t.toJson.levels < depth := by
  -- on the number of calls that may still be read; a decoder without any reads nothing
  induction calls generalizing depth j t with
  | zero => cases h
  | succ calls ih =>
    obtain ⟨⟨msg, subcalls, _⟩, hread, h⟩ := of_bind_ok
      (x := (fieldsWith (decoderWithin calls)).read depth j) h
    obtain ⟨⟨sender, receiver⟩, hmsg, h⟩ := of_bind_ok h
    cases h
    -- the parties were read one level inside the limit, each in turn one level further in
    obtain ⟨hdepth, hfilled⟩ := Fields.filled_of_read hread
    obtain ⟨jmsg, hparties⟩ := hfilled.1 _ (required_eq_ok hmsg)
    obtain ⟨_, hfields, -⟩ := of_bind_ok (x := partyFields.read (depth - 1) jmsg) hparties
    have hinner := (Fields.filled_of_read hfields).1
    rw [levels_call]
    have hitems : levelsOfItems (toJsonList (subcalls.getD [])) < depth - 1 - 1 := by
      cases subcalls with
      | none => exact Nat.sub_pos_of_lt hinner
      | some ts =>
        obtain ⟨js, hlist⟩ := hfilled.2.1 ts rfl
        rcases nullableList_eq_ok hlist with rfl | ⟨-, hts⟩
        · exact Nat.sub_pos_of_lt hinner
        · refine levelsOfItems_lt (Nat.sub_pos_of_lt hinner) fun t ht => ?_
          obtain ⟨jt, hjt⟩ := hts t ht
          exact ih hjt
    omega

end CallTrace

-- ---------------------------------------------------------------------------
-- Runs on trial
-- ---------------------------------------------------------------------------

namespace TrialRun

theorem levels_toJson (r : TrialRun) : (form.toJson r).levels = r.trace.toJson.levels + 1 := by
  show max r.trace.toJson.levels 0 + 1 = _
  omega

theorem printed_toJson (r : TrialRun) : Printed (form.toJson r) := by
  apply printed_record
  simp only [List.forall_mem_cons, List.not_mem_nil, false_implies, implies_true, and_true]
  exact ⟨r.trace.printed_toJson, Form.string_faithful.printed r.error⟩

/-- A run is read back if its text stays inside the limit. -/
theorem decoder_toJson (r : TrialRun) {depth : Nat} (h : (form.toJson r).levels < depth) :
    form.decoder depth (form.toJson r) = .ok r := by
  rw [levels_toJson] at h
  have htrace := r.trace.decoderWithin_toJson (Nat.le_refl (depth - 1)) (by omega)
  have hread : fields.read depth (form.toJson r) = .ok (some r.trace, some r.error, ()) :=
    Fields.read_record (by omega) (by decide) (.member htrace (.member rfl .nil))
  show (fields.read depth (form.toJson r) >>= _) = _
  rw [hread]
  rfl

/-- What has been read as a run has a text inside the limit. -/
theorem levels_lt_of_decoder {depth : Nat} {j : Json} {r : TrialRun}
    (h : form.decoder depth j = .ok r) : (form.toJson r).levels < depth := by
  obtain ⟨⟨trace, error, _⟩, hread, h⟩ := of_bind_ok (x := fields.read depth j) h
  obtain ⟨t, htrace, h⟩ := of_bind_ok h
  cases h
  obtain ⟨hdepth, hfilled⟩ := Fields.filled_of_read hread
  obtain ⟨jt, hjt⟩ := hfilled.1 t (required_eq_ok htrace)
  have := CallTrace.levels_lt_of_decoderWithin hjt
  rw [levels_toJson]
  show t.toJson.levels + 1 < depth
  omega

/-- The runs that fit into a text are those whose calls nest inside the limit. -/
theorem lossless : form.Lossless fun r => (form.toJson r).levels < nesting := by
  refine .of_fits (fun r => ?_) fun s r h => ?_
  · rw [Form.parse_print_eq r.printed_toJson]
    exact ⟨levels_lt_of_decoder, decoder_toJson r⟩
  · obtain ⟨j, hj⟩ := Form.decoder_of_parse h
    exact levels_lt_of_decoder hj

end TrialRun

-- ---------------------------------------------------------------------------
-- All forms
-- ---------------------------------------------------------------------------

/-- Every type that is exchanged with a node is read back from the text printed for it, and texts
that are read as the same value are those that are printed alike. Only runs on trial may fail to
fit, those whose calls nest too deep for a text. -/
theorem forms_lossless :
    Form.address.Lossless (fun _ => True) ∧
    Form.tokenAmount.Lossless (fun _ => True) ∧
    Form.bytes.Lossless (fun _ => True) ∧
    (∀ n, (Form.bytesUpTo n).Lossless fun _ => True) ∧
    Form.cid.Lossless (fun _ => True) ∧
    Form.cid.list.Lossless (fun _ => True) ∧
    Form.cid.option.Lossless (fun _ => True) ∧
    TipsetKey.form.Lossless (fun _ => True) ∧
    Message.form.Lossless (fun _ => True) ∧
    BlockHeader.form.Lossless (fun _ => True) ∧
    Receipt.form.Lossless (fun _ => True) ∧
    Tipset.form.Lossless (fun _ => True) ∧
    MessageLookup.form.Lossless (fun _ => True) ∧
    NamedMessage.form.Lossless (fun _ => True) ∧
    TrialRun.form.Lossless (fun r => (TrialRun.form.toJson r).levels < nesting) ∧
    Form.cid.single.Lossless (fun _ => True) ∧
    (Form.int64.pair TipsetKey.form.option).Lossless (fun _ => True) := by
  have hpair : (Form.int64.pair TipsetKey.form.option).Faithful 3 :=
    (Form.int64_faithful.mono (by omega)).pair (TipsetKey.form_faithful.option nofun)
  exact ⟨Form.address_faithful.lossless (by decide), Form.tokenAmount_faithful.lossless (by decide),
    Form.bytes_faithful.lossless (by decide),
    fun n => (Form.bytesUpTo_faithful n).lossless (by decide),
    Form.cid_faithful.lossless (by decide), Form.cid_faithful.list.lossless (by decide),
    (Form.cid_faithful.option nofun).lossless (by decide),
    TipsetKey.form_faithful.lossless (by decide), Message.form_faithful.lossless (by decide),
    BlockHeader.form_faithful.lossless (by decide), Receipt.form_faithful.lossless (by decide),
    Tipset.form_faithful.lossless (by decide), MessageLookup.form_faithful.lossless (by decide),
    NamedMessage.form_faithful.lossless (by decide), TrialRun.lossless,
    Form.cid_faithful.single.lossless (by decide), hpair.lossless (by decide)⟩

/-- Every sample is written as the JSON beside it, and read back from that. -/
example :
    (∀ p ∈ Form.addressSamples, Form.address.agrees p.1 p.2) ∧
    (∀ p ∈ Form.tokenAmountSamples, Form.tokenAmount.agrees p.1 p.2) ∧
    (∀ p ∈ Form.bytesSamples, Form.bytes.agrees p.1 p.2) ∧
    (∀ p ∈ Form.cidSamples, Form.cid.agrees p.1 p.2) ∧
    (∀ p ∈ TipsetKey.samples, TipsetKey.form.agrees p.1 p.2) ∧
    (∀ p ∈ Message.samples, Message.form.agrees p.1 p.2) ∧
    (∀ p ∈ BlockHeader.samples, BlockHeader.form.agrees p.1 p.2) ∧
    (∀ p ∈ Receipt.samples, Receipt.form.agrees p.1 p.2) ∧
    (∀ p ∈ Tipset.samples, Tipset.form.agrees p.1 p.2) := by
  decide +kernel

end ReplayVector
