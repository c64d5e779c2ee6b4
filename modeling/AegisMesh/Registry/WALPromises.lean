import AegisMesh.Registry.WALWriter

/-!
# What the writer of the log promises

The ledger is what the callers were told. Every operation of the writer keeps the file in step with it.
-/

open Lib

namespace AegisMesh.Registry.FileRegistryWAL

/-! ## What the acknowledgements promise -/

structure Ledger where
  base : Bytes
  frames : List Bytes := []
  intact : Bool := true
deriving DecidableEq

namespace Ledger

def note (l : Ledger) : Event → Ledger
  | .failed => l
  | .truncated => { l with intact := false }
  | .acked _ (some _) => l
  | .acked req none =>
    match req.kind with
    | .append => { l with frames := l.frames ++ [req.data] }
    | .reset => { base := req.data }
    | .close => l

def bytes (l : Ledger) : Bytes := l.base ++ l.frames.flatten

end Ledger

namespace Disk

variable (opened : Bytes) (d : Disk)

def ledger : Ledger := d.log.foldl Ledger.note { base := opened }

structure Sound : Prop where
  content : (d.ledger opened).intact = true → (d.ledger opened).bytes <+: d.content
  synced : (d.ledger opened).intact = true → (d.ledger opened).frames ≠ [] → (d.ledger opened).bytes <+: d.synced
  honest : d.log.Pairwise fun earlier later => earlier = .failed → ∀ req, req.kind = .append → later ≠ .acked req none

variable {opened d} {d' : Disk}

theorem ledger_congr (h : d'.log = d.log) : d'.ledger opened = d.ledger opened := by rw [ledger, ledger, h]

theorem acks_congr (h : d'.log = d.log) : d'.acks = d.acks := by rw [acks, acks, h]

@[simp] theorem ledger_note (e : Event) : (d.note e).ledger opened = (d.ledger opened).note e := by
  simp [ledger, note]

@[simp] theorem acks_acked (req : Request) (err : Option WALError) : (d.note (.acked req err)).acks = d.acks ++ [req] := by
  simp [acks, note]

@[simp] theorem acks_failed : (d.note .failed).acks = d.acks := by simp [acks, note]

@[simp] theorem acks_truncated : (d.note .truncated).acks = d.acks := by simp [acks, note]

/-! ### Steps that keep the promises -/

theorem Sound.grows (h : d.Sound opened) (hlog : d'.log = d.log) (hcontent : d.content <+: d'.content)
    (hsynced : d'.synced = d.synced ∨ d'.synced = d.content) : d'.Sound opened := by
  refine ⟨?_, ?_, hlog ▸ h.honest⟩ <;> rw [ledger_congr hlog]
  · exact fun hintact => (h.content hintact).trans hcontent
  · intro hintact hframes
    rcases hsynced with heq | heq <;> rw [heq]
    · exact h.synced hintact hframes
    · exact h.content hintact

theorem Sound.honest_note (h : d.Sound opened) {e : Event} (he : ∀ req, req.kind = .append → e ≠ .acked req none) :
    (d.note e).log.Pairwise fun earlier later =>
      earlier = .failed → ∀ req, req.kind = .append → later ≠ .acked req none := by
  refine List.pairwise_append.mpr ⟨h.honest, List.pairwise_singleton _ _, fun earlier _ later hlater _ => ?_⟩
  rw [List.mem_singleton.mp hlater]
  exact he

theorem Sound.same_ledger (h : d.Sound opened) {e : Event} (he : ∀ req, req.kind = .append → e ≠ .acked req none)
    (hledger : (d.ledger opened).note e = d.ledger opened) : (d.note e).Sound opened := by
  refine ⟨?_, ?_, h.honest_note he⟩ <;> rw [ledger_note, hledger]
  · exact h.content
  · exact h.synced

theorem Sound.failed (h : d.Sound opened) : (d.note .failed).Sound opened := h.same_ledger (fun _ _ => by simp) rfl

theorem Sound.refused (h : d.Sound opened) (req : Request) (e : WALError) :
    (d.note (.acked req (some e))).Sound opened := h.same_ledger (fun _ _ => by simp) rfl

theorem Sound.truncated (h : d.Sound opened) (hlog : d'.log = d.log) : (d'.note .truncated).Sound opened := by
  have hhonest := h.honest_note (e := .truncated) (fun _ _ => by simp)
  refine ⟨?_, ?_, ?_⟩
  · simp [Ledger.note]
  · simp [Ledger.note]
  · rwa [note, hlog]

theorem Sound.closed (h : d.Sound opened) {req : Request} (hkind : req.kind = .close) (err : Option WALError) :
    (d.note (.acked req err)).Sound opened := by
  cases err with
  | some e => exact h.refused req e
  | none =>
    refine h.same_ledger (fun other hother heq => ?_) (by simp [Ledger.note, hkind])
    cases heq
    rw [hkind] at hother
    cases hother

theorem Sound.marked (h : d.Sound opened) {req : Request} (hkind : req.kind = .reset) (hcontent : d.content = req.data) :
    (d.note (.acked req none)).Sound opened := by
  have hledger : (d.note (.acked req none)).ledger opened = { base := req.data } := by simp [Ledger.note, hkind]
  refine ⟨fun _ => ?_, fun _ hframes => ?_, h.honest_note fun other hother heq => ?_⟩
  · rw [hledger]
    simp [Ledger.bytes, note, hcontent]
  · rw [hledger] at hframes
    exact absurd rfl hframes
  · cases heq
    rw [hkind] at hother
    cases hother

theorem Sound.appended (h : d.Sound opened) {req : Request} (hkind : req.kind = .append)
    (hcontent : d.content = (d.ledger opened).bytes ++ req.data) (hsynced : d.synced = d.content)
    (hfailed : .failed ∉ d.log) : (d.note (.acked req none)).Sound opened := by
  have hbytes : ((d.note (.acked req none)).ledger opened).bytes = d.content := by
    simp [Ledger.note, hkind, Ledger.bytes, hcontent]
  refine ⟨fun _ => hbytes ▸ List.prefix_rfl, fun _ _ => ?_, ?_⟩
  · rw [hbytes, ← hsynced]
    exact List.prefix_rfl
  · refine List.pairwise_append.mpr ⟨h.honest, List.pairwise_singleton _ _, fun earlier hearlier _ _ heq => ?_⟩
    exact absurd (heq ▸ hearlier) hfailed

end Disk

/-! ## What the operations do -/

open Disk

variable {opened : Bytes} {d d' : Disk} {answer : Option WALError}

theorem acts_write {p : Bytes} {answer : Option (ℕ × WALError)} (h : Acts (.write p) d answer d') :
    answer = none ∧ d.isOpen = true ∧ d' = { d with content := d.content ++ p } ∨
    (∃ failure, answer = some failure) ∧ ∃ content, d.content <+: content ∧ d' = { d with content }.note .failed := by
  obtain ⟨fault, h⟩ := h
  dsimp only [perform] at h
  split at h
  · cases fault with
    | none =>
      cases h
      exact .inl ⟨rfl, ‹_›, rfl⟩
    | some f =>
      cases h
      exact .inr ⟨⟨_, rfl⟩, _, List.prefix_append _ _, rfl⟩
  · cases h
    exact .inr ⟨⟨_, rfl⟩, _, List.prefix_rfl, rfl⟩

theorem acts_sync (h : Acts .sync d answer d') :
    answer = none ∧ d.isOpen = true ∧ d' = { d with synced := d.content } ∨
    (∃ e, answer = some e) ∧ d' = d.note .failed := by
  obtain ⟨fault, h⟩ := h
  dsimp only [perform] at h
  split at h
  · cases fault with
    | none =>
      cases h
      exact .inl ⟨rfl, ‹_›, rfl⟩
    | some f =>
      cases h
      exact .inr ⟨⟨_, rfl⟩, rfl⟩
  · cases h
    exact .inr ⟨⟨_, rfl⟩, rfl⟩

theorem acts_close (h : Acts .close d answer d') : ∃ isOpen, d' = { d with isOpen } := by
  obtain ⟨fault, h⟩ := h
  dsimp only [perform] at h
  split at h <;> cases h
  · exact ⟨false, rfl⟩
  · exact ⟨d.isOpen, rfl⟩

theorem acts_openTrunc (h : Acts .openTrunc d answer d') :
    answer = none ∧ d' = { d with content := [], synced := [], isOpen := true }.note .truncated ∨
    (∃ e, answer = some e) ∧ d' = d := by
  obtain ⟨fault, h⟩ := h
  dsimp only [perform] at h
  cases fault with
  | none =>
    cases h
    exact .inl ⟨rfl, rfl⟩
  | some f =>
    cases h
    exact .inr ⟨⟨_, rfl⟩, rfl⟩

theorem acts_ack {req : Request} {err : Option WALError} {answer : Unit} (h : Acts (.ack req err) d answer d') :
    d' = d.note (.acked req err) := by
  obtain ⟨fault, h⟩ := h
  cases h
  rfl

/-! ## Pieces of a turn -/

structure Disk.Shown (opened : Bytes) (taken : List Request) (d : Disk) : Prop where
  sound : d.Sound opened
  acks : d.acks <+: taken

structure Disk.Told (opened : Bytes) (l : Ledger) (acks : List Request) (d : Disk) : Prop where
  sound : d.Sound opened
  ledger : d.ledger opened = l
  acks : d.acks = acks

structure BufWriter.Holds (b : BufWriter) (d : Disk) (text : Bytes) : Prop where
  isOpen : d.isOpen = true
  err : b.err = none
  text : d.content ++ b.buffered = text

variable {taken acks : List Request} {l : Ledger} {text p : Bytes} {b : BufWriter}

theorem Disk.Told.shown (h : d.Told opened l acks) (hacks : acks <+: taken) : d.Shown opened taken :=
  ⟨h.sound, h.acks ▸ hacks⟩

theorem Disk.Told.grows (h : d.Told opened l acks) (hlog : d'.log = d.log) (hcontent : d.content <+: d'.content)
    (hsynced : d'.synced = d.synced ∨ d'.synced = d.content) : d'.Told opened l acks :=
  ⟨h.sound.grows hlog hcontent hsynced, (ledger_congr hlog).trans h.ledger, (acks_congr hlog).trans h.acks⟩

theorem Disk.Told.failed (h : d.Told opened l acks) : (d.note .failed).Told opened l acks :=
  ⟨h.sound.failed, by rw [ledger_note, h.ledger]; rfl, by rw [acks_failed, h.acks]⟩

def Piece (opened : Bytes) (l : Ledger) (acks : List Request) (d : Disk) {α : Type} (good : α → Disk → Prop)
    (r : α × Option WALError) (d' : Disk) : Prop :=
  d'.Told opened l acks ∧ (r.2 = none → d'.log = d.log ∧ good r.1 d')

namespace BufWriter

theorem always_write_file (h : d.Told opened l acks) (hacks : acks <+: taken) (p : Bytes) :
    (ask (.write p)).Always Acts (Shown opened taken)
      (fun answer d' => d'.Told opened l acks ∧
        (answer = none → d.isOpen = true ∧ d' = { d with content := d.content ++ p })) d := by
  refine .ask (h.shown hacks) fun answer d' hacts => ?_
  rcases acts_write hacts with ⟨rfl, hopen, rfl⟩ | ⟨⟨failure, rfl⟩, content, hcontent, rfl⟩
  · exact ⟨h.grows rfl (List.prefix_append _ _) (.inl rfl), fun _ => ⟨hopen, rfl⟩⟩
  · have hgrown : Disk.Told opened l acks { d with content } := h.grows rfl hcontent (.inl rfl)
    exact ⟨hgrown.failed, fun hnone => nomatch hnone⟩

theorem always_flush (h : d.Told opened l acks) (hacks : acks <+: taken) (b : BufWriter) :
    b.flush.Always Acts (Shown opened taken)
      (Piece opened l acks d fun b' d' => ∀ text, b.Holds d text → b'.Holds d' text ∧ b'.buffered = []) d := by
  unfold flush
  split
  · exact .done ⟨h, fun hnone => nomatch hnone⟩
  split
  · rename_i hnil
    exact .done ⟨h, fun _ => ⟨rfl, fun text hholds => ⟨hholds, hnil⟩⟩⟩
  · refine (always_write_file h hacks b.buffered).bind fun answer d' hwrote => ?_
    cases answer with
    | some failure => exact .done ⟨hwrote.1, fun hnone => nomatch hnone⟩
    | none =>
      obtain ⟨hopen, rfl⟩ := hwrote.2 rfl
      refine .done ⟨hwrote.1, fun _ => ⟨rfl, fun text hholds => ⟨⟨hopen, hholds.err, ?_⟩, rfl⟩⟩⟩
      rw [List.append_nil]
      exact hholds.text

theorem always_writeThrough (h : d.Told opened l acks) (hacks : acks <+: taken) (b : BufWriter) (p : Bytes) :
    (b.writeThrough p).Always Acts (Shown opened taken)
      (Piece opened l acks d fun b' d' => ∀ text, b.buffered = [] → b.Holds d text → b'.Holds d' (text ++ p)) d := by
  unfold writeThrough
  refine (always_write_file h hacks p).bind fun answer d' hwrote => ?_
  cases answer with
  | some failure => exact .done ⟨hwrote.1, fun hnone => nomatch hnone⟩
  | none =>
    obtain ⟨hopen, rfl⟩ := hwrote.2 rfl
    refine .done ⟨hwrote.1, fun _ => ⟨rfl, fun text hnil hholds => ⟨hopen, hholds.err, ?_⟩⟩⟩
    have htext := hholds.text
    rw [hnil, List.append_nil] at htext ⊢
    rw [htext]

theorem always_write (h : d.Told opened l acks) (hacks : acks <+: taken) (b : BufWriter) (p : Bytes) :
    (b.write p).Always Acts (Shown opened taken)
      (Piece opened l acks d fun b' d' => ∀ text, b.Holds d text → b'.Holds d' (text ++ p)) d := by
  unfold write
  split
  · exact .done ⟨h, fun hnone => nomatch hnone⟩
  dsimp only
  split
  · refine .done ⟨h, fun _ => ⟨rfl, fun text hholds => ⟨hholds.isOpen, hholds.err, ?_⟩⟩⟩
    rw [← hholds.text, List.append_assoc]
  split
  · rename_i hnil
    refine (always_writeThrough h hacks b p).imp fun r d' hr => ⟨hr.1, fun hnone => ?_⟩
    exact ⟨(hr.2 hnone).1, fun text => (hr.2 hnone).2 text hnil⟩
  -- The buffer is filled and flushed first.
  generalize hroom : bufferSize - b.buffered.length = room
  refine (always_flush h hacks _).bind fun r d₁ hr => ?_
  obtain ⟨b₁, err⟩ := r
  cases err with
  | some e => exact .done ⟨hr.1, fun hnone => nomatch hnone⟩
  | none =>
    obtain ⟨hlog, hflushed⟩ := hr.2 rfl
    have hholds₁ : ∀ text, b.Holds d text → b₁.Holds d₁ (text ++ p.take room) ∧ b₁.buffered = [] := by
      intro text hholds
      refine hflushed _ ⟨hholds.isOpen, hholds.err, ?_⟩
      rw [← hholds.text, List.append_assoc]
    have hwhole : ∀ text : Bytes, text ++ p.take room ++ p.drop room = text ++ p := by
      intro text
      rw [List.append_assoc, List.take_append_drop]
    dsimp only
    split
    · refine .done ⟨hr.1, fun _ => ⟨hlog, fun text hholds => ?_⟩⟩
      have hb := (hholds₁ text hholds).1
      refine ⟨hb.isOpen, hb.err, ?_⟩
      rw [← hwhole, ← hb.text, List.append_assoc]
    · refine (always_writeThrough hr.1 hacks b₁ _).imp fun r d' hr' => ⟨hr'.1, fun hnone => ?_⟩
      obtain ⟨hlog', hthrough⟩ := hr'.2 hnone
      refine ⟨hlog'.trans hlog, fun text hholds => ?_⟩
      rw [← hwhole]
      exact hthrough _ (hholds₁ text hholds).2 (hholds₁ text hholds).1

end BufWriter

/-! ## Turns -/

structure Ready (opened : Bytes) (taken : List Request) (w : Writer) (d : Disk) : Prop where
  sound : d.Sound opened
  acks : d.acks = taken
  pendingAcks : w.pendingAcks = []
  clean : w.fatalErr = none →
    w.buf.Holds d (d.ledger opened).bytes ∧ w.buf.buffered = [] ∧ (d.ledger opened).intact = true ∧ .failed ∉ d.log

variable {w : Writer} {req : Request} {cfg : WALConfig}

theorem Ready.told (h : Ready opened taken w d) : d.Told opened (d.ledger opened) taken := ⟨h.sound, rfl, h.acks⟩

theorem Ready.shown (h : Ready opened taken w d) : d.Shown opened taken := h.told.shown List.prefix_rfl

theorem always_ack (h : d.Shown opened taken) (req : Request) (err : Option WALError) :
    (ask (.ack req err)).Always Acts (Shown opened taken) (fun _ d' => d' = d.note (.acked req err)) d :=
  .ask h fun _ _ hacts => acts_ack hacts

namespace Writer

structure Flushed (w w' : Writer) : Prop where
  pendingAcks : w'.pendingAcks = w.pendingAcks
  fatalErr : w'.fatalErr = w.fatalErr

theorem always_flush (h : d.Told opened l acks) (hacks : acks <+: taken) (w : Writer) :
    w.flush.Always Acts (Shown opened taken)
      (fun r d' => w.Flushed r.1 ∧ Piece opened l acks d (fun w' d' => d'.synced = d'.content ∧
        ∀ text, w.buf.Holds d text → w'.buf.Holds d' text ∧ w'.buf.buffered = []) r d') d := by
  have hbuf : (if 0 < w.buf.buffered.length then w.buf.flush else pure (w.buf, none)).Always Acts (Shown opened taken)
      (Piece opened l acks d fun b d' => ∀ text, w.buf.Holds d text → b.Holds d' text ∧ b.buffered = []) d := by
    split
    · exact BufWriter.always_flush h hacks w.buf
    · rename_i hnone
      refine .done ⟨h, fun _ => ⟨rfl, fun text hholds => ⟨hholds, ?_⟩⟩⟩
      exact List.length_eq_zero_iff.mp (Nat.eq_zero_of_not_pos hnone)
  unfold flush
  refine hbuf.bind fun r d₁ hr => ?_
  obtain ⟨b, err⟩ := r
  cases err with
  | some e => exact .done ⟨⟨rfl, rfl⟩, hr.1, fun hnone => nomatch hnone⟩
  | none =>
    obtain ⟨hlog, hholds⟩ := hr.2 rfl
    refine Program.Always.bind (.ask (hr.1.shown hacks) fun _ _ hacts => hacts) fun answer d' hacts => ?_
    rcases acts_sync hacts with ⟨rfl, hopen, rfl⟩ | ⟨⟨e, rfl⟩, rfl⟩
    · refine .done ⟨⟨rfl, rfl⟩, hr.1.grows rfl List.prefix_rfl (.inr rfl), fun _ => ⟨hlog, rfl, fun text htext => ?_⟩⟩
      obtain ⟨hb, hnil⟩ := hholds text htext
      exact ⟨⟨hb.isOpen, hb.err, hb.text⟩, hnil⟩
    · exact .done ⟨⟨rfl, rfl⟩, hr.1.failed, fun hnone => nomatch hnone⟩

theorem ackPending_nil (h : w.pendingAcks = []) (err : Option WALError) : w.ackPending err = pure w := by
  cases w
  cases h
  rfl

theorem ackPending_singleton (h : w.pendingAcks = [req]) (err : Option WALError) :
    w.ackPending err = (ask (.ack req err) >>= fun _ => pure { w with pendingAcks := [] }) := by
  cases w
  cases h
  rfl

@[simp] theorem failing_pendingAcks (err : Option WALError) : (w.failing err).pendingAcks = w.pendingAcks := by
  cases err <;> rfl

theorem ready_of_fatal {e : WALError} (hfatal : w.fatalErr = some e) (hpending : w.pendingAcks = [])
    (h : d.Told opened l taken) : Ready opened taken w d :=
  ⟨h.sound, h.acks, hpending, fun hnone => by rw [hfatal] at hnone; cases hnone⟩

theorem always_tick (h : Ready opened taken w d) :
    w.tick.Always Acts (Shown opened taken) (fun w' d' => Ready opened taken w' d') d := by
  unfold tick
  split
  · exact .done h
  refine (always_flush h.told List.prefix_rfl w).bind fun r d' ⟨hsame, htold, hgood⟩ => ?_
  obtain ⟨w', err⟩ := r
  have hpending : w'.pendingAcks = [] := hsame.pendingAcks.trans h.pendingAcks
  dsimp only
  rw [ackPending_nil (by rw [failing_pendingAcks, hpending])]
  cases err with
  | some e => exact .done (ready_of_fatal rfl hpending htold)
  | none =>
    obtain ⟨hlog, -, hholds⟩ := hgood rfl
    refine .done ⟨htold.sound, htold.acks, hpending, fun hfatal => ?_⟩
    obtain ⟨hclean, -, hintact, hfailed⟩ := h.clean (hsame.fatalErr.symm.trans hfatal)
    obtain ⟨htext, hnil⟩ := hholds _ hclean
    rw [htold.ledger, hlog]
    exact ⟨htext, hnil, hintact, hfailed⟩

theorem ready_refused {e : WALError} (hfatal : w.fatalErr = some e) (hpending : w.pendingAcks = [])
    (h : d.Told opened l acks) (htaken : taken = acks ++ [req]) :
    Ready opened taken w (d.note (.acked req (some e))) :=
  ready_of_fatal (l := l) hfatal hpending
    ⟨h.sound.refused req e, by rw [ledger_note, h.ledger]; rfl, by rw [acks_acked, h.acks, htaken]⟩

theorem ready_appended (hkind : req.kind = .append) (hpending : w.pendingAcks = [])
    (h : d.Told opened l acks) (htaken : taken = acks ++ [req]) (hholds : w.buf.Holds d (l.bytes ++ req.data))
    (hnil : w.buf.buffered = []) (hsynced : d.synced = d.content) (hintact : l.intact = true) (hfailed : .failed ∉ d.log) :
    Ready opened taken w (d.note (.acked req none)) := by
  have hcontent : d.content = l.bytes ++ req.data := by
    have htext := hholds.text
    rwa [hnil, List.append_nil] at htext
  have hledger : (d.note (.acked req none)).ledger opened = { l with frames := l.frames ++ [req.data] } := by
    rw [ledger_note, h.ledger]
    simp [Ledger.note, hkind]
  refine ⟨h.sound.appended hkind (by rw [h.ledger, hcontent]) hsynced hfailed, by rw [acks_acked, h.acks, htaken], hpending,
    fun _ => ⟨⟨hholds.isOpen, hholds.err, ?_⟩, hnil, ?_, ?_⟩⟩
  · rw [hledger, hnil, List.append_nil]
    simp [Ledger.bytes, note, hcontent]
  · rw [hledger]
    exact hintact
  · simp [note, hfailed]

theorem always_append (hmode : cfg.syncMode = .always) (hkind : req.kind = .append) (h : Ready opened acks w d)
    (htaken : taken = acks ++ [req]) :
    (w.append cfg req).Always Acts (Shown opened taken) (fun w' d' => Ready opened taken w' d') d := by
  have hacks : acks <+: taken := htaken ▸ List.prefix_append _ _
  unfold append
  cases hfatal : w.fatalErr with
  | some e =>
    refine (always_ack (h.told.shown hacks) req (some e)).bind fun _ d' hd' => ?_
    rw [hd']
    exact .done (ready_refused hfatal h.pendingAcks h.told htaken)
  | none =>
    obtain ⟨hclean, -, hintact, hfailed⟩ := h.clean hfatal
    refine (BufWriter.always_write h.told hacks w.buf req.data).bind fun r d₁ ⟨htold, hgood⟩ => ?_
    obtain ⟨b, err⟩ := r
    cases err with
    | some e =>
      refine (always_ack (htold.shown hacks) req (some e)).bind fun _ d' hd' => ?_
      rw [hd']
      exact .done (ready_refused rfl h.pendingAcks htold htaken)
    | none =>
      obtain ⟨hlog, hwritten⟩ := hgood rfl
      dsimp only
      rw [hmode, h.pendingAcks]
      simp only [Program.pure_eq, Program.done_bind, true_or, if_true, List.nil_append]
      refine (always_flush htold hacks _).bind fun r d₂ ⟨hsame, htold₂, hgood₂⟩ => ?_
      obtain ⟨w₂, err⟩ := r
      have hpending : w₂.pendingAcks = [req] := hsame.pendingAcks
      dsimp only
      rw [ackPending_singleton (by rw [failing_pendingAcks, hpending])]
      refine (always_ack (htold₂.shown hacks) req err).bind fun _ d' hd' => ?_
      rw [hd']
      cases err with
      | some e => exact .done (ready_refused rfl rfl htold₂ htaken)
      | none =>
        obtain ⟨hlog₂, hsynced, hflushed⟩ := hgood₂ rfl
        obtain ⟨hholds, hnil⟩ := hflushed _ (hwritten _ hclean)
        refine .done (ready_appended hkind rfl htold₂ htaken hholds hnil hsynced hintact ?_)
        rw [hlog₂, hlog]
        exact hfailed

/-! ### Reset and close -/

variable {err : Option WALError}

theorem always_orElse {next : Work (Option WALError)} {ends : Option WALError → Disk → Prop}
    (hsome : ∀ e, err = some e → ends (some e) d) (hnone : err = none → next.Always Acts (Shown opened taken) ends d) :
    (orElse err next).Always Acts (Shown opened taken) ends d := by
  cases err with
  | some e => exact .done (hsome e rfl)
  | none => exact hnone rfl

structure Resetting (opened : Bytes) (acks : List Request) (d : Disk) (good : Prop) (err : Option WALError) (d' : Disk) :
    Prop where
  told : ∃ l, d'.Told opened l acks
  quiet : err = none → .failed ∈ d'.log → .failed ∈ d.log
  good : err = none → good

variable {d₀ : Disk}

theorem Resetting.of_error {good : Prop} (h : ∃ l, d.Told opened l acks) (e : WALError) :
    Resetting opened acks d₀ good (some e) d := ⟨h, (fun hnone => by cases hnone), (fun hnone => by cases hnone)⟩

theorem always_writeMark (hacks : acks <+: taken) (data : Bytes)
    (h : Resetting opened acks d₀ (d.isOpen = true ∧ d.content = []) err d) :
    (w.writeMark err data).Always Acts (Shown opened taken)
      (fun r d' => w.Flushed r.1 ∧ Resetting opened acks d₀ (r.1.buf.Holds d' data) r.2 d') d := by
  unfold writeMark
  cases err with
  | some e => exact .done ⟨⟨rfl, rfl⟩, .of_error h.told e⟩
  | none =>
    obtain ⟨l, htold⟩ := h.told
    obtain ⟨hopen, hempty⟩ := h.good rfl
    refine (BufWriter.always_write htold hacks {} data).bind fun r d' ⟨htold', hgood⟩ => ?_
    refine .done ⟨⟨rfl, rfl⟩, ⟨l, htold'⟩, fun hnone hfailed => h.quiet rfl ?_, fun hnone => ?_⟩
    · rwa [← (hgood hnone).1]
    · have hholds := (hgood hnone).2 [] ⟨hopen, rfl, by rw [hempty]; rfl⟩
      exact hholds

theorem always_flushMark (hacks : acks <+: taken) {data : Bytes}
    (h : Resetting opened acks d₀ (w.buf.Holds d data) err d) :
    (w.flushMark err).Always Acts (Shown opened taken)
      (fun r d' => w.Flushed r.1 ∧
        Resetting opened acks d₀ (r.1.buf.Holds d' data ∧ r.1.buf.buffered = []) r.2 d') d := by
  unfold flushMark
  cases err with
  | some e => exact .done ⟨⟨rfl, rfl⟩, .of_error h.told e⟩
  | none =>
    obtain ⟨l, htold⟩ := h.told
    refine (always_flush htold hacks w).imp fun r d' ⟨hsame, htold', hgood⟩ => ?_
    refine ⟨hsame, ⟨l, htold'⟩, fun hnone hfailed => h.quiet rfl ?_, fun hnone => ?_⟩
    · rwa [← (hgood hnone).1]
    · exact (hgood hnone).2.2 data (h.good rfl)

theorem ready_reset (hkind : req.kind = .reset) (hpending : w.pendingAcks = [])
    (hfailed : w.fatalErr = none → .failed ∉ d₀.log) (htaken : taken = acks ++ [req])
    (h : Resetting opened acks d₀ (w.buf.Holds d req.data ∧ w.buf.buffered = []) err d) :
    Ready opened taken (w.failing err) (d.note (.acked req err)) := by
  obtain ⟨l, htold⟩ := h.told
  cases err with
  | some e => exact ready_refused rfl hpending htold htaken
  | none =>
    obtain ⟨hholds, hnil⟩ := h.good rfl
    have hcontent : d.content = req.data := by
      have htext := hholds.text
      rwa [hnil, List.append_nil] at htext
    have hledger : (d.note (.acked req none)).ledger opened = { base := req.data } := by simp [Ledger.note, hkind]
    refine ⟨htold.sound.marked hkind hcontent, by rw [acks_acked, htold.acks, htaken], hpending,
      fun hfatal => ⟨⟨hholds.isOpen, hholds.err, ?_⟩, hnil, ?_, ?_⟩⟩
    · rw [hledger]
      show d.content ++ w.buf.buffered = _
      rw [hnil, hcontent]
      simp [Ledger.bytes]
    · rw [hledger]
    · have hquiet := mt (h.quiet rfl) (hfailed hfatal)
      simp [note, hquiet]

theorem always_reset (hkind : req.kind = .reset) (h : Ready opened acks w d) (htaken : taken = acks ++ [req]) :
    (w.reset req).Always Acts (Shown opened taken) (fun w' d' => Ready opened taken w' d') d := by
  have hacks : acks <+: taken := htaken ▸ List.prefix_append _ _
  unfold reset
  refine (always_flush h.told hacks w).bind fun r d₁ ⟨hsame, htold₁, hgood₁⟩ => ?_
  obtain ⟨w₁, err₁⟩ := r
  have hpending : w₁.pendingAcks = [] := hsame.pendingAcks.trans h.pendingAcks
  dsimp only
  rw [ackPending_nil hpending]
  simp only [Program.pure_eq, Program.done_bind]
  have hreset₁ : Resetting opened acks d True err₁ d₁ :=
    ⟨⟨_, htold₁⟩, fun hnone hfailed => (hgood₁ hnone).1 ▸ hfailed, fun _ => trivial⟩
  -- The file is closed.
  have hclose : (orElse err₁ (ask .close)).Always Acts (Shown opened taken) (Resetting opened acks d True) d₁ := by
    refine always_orElse (fun e he => he ▸ hreset₁) fun hnone => ?_
    refine .ask (htold₁.shown hacks) fun answer d₂ hacts => ?_
    obtain ⟨isOpen, rfl⟩ := acts_close hacts
    exact ⟨⟨_, htold₁.grows rfl List.prefix_rfl (.inl rfl)⟩, fun _ => hreset₁.quiet hnone, fun _ => trivial⟩
  refine hclose.bind fun err₂ d₂ hreset₂ => ?_
  -- The file is opened again, and empty.
  have hopen : (orElse err₂ (ask .openTrunc)).Always Acts (Shown opened taken)
      (fun err d' => Resetting opened acks d (d'.isOpen = true ∧ d'.content = []) err d') d₂ := by
    obtain ⟨l₂, htold₂⟩ := hreset₂.told
    refine always_orElse (fun e _ => .of_error ⟨_, htold₂⟩ e) fun hnone => ?_
    refine .ask (htold₂.shown hacks) fun answer d₃ hacts => ?_
    rcases acts_openTrunc hacts with ⟨rfl, rfl⟩ | ⟨⟨e, rfl⟩, rfl⟩
    · refine ⟨⟨_, htold₂.sound.truncated rfl, rfl, ?_⟩, fun _ hfailed => hreset₂.quiet hnone ?_, fun _ => ⟨rfl, rfl⟩⟩
      · rw [acks_truncated, ← htold₂.acks]
        rfl
      · simpa [note] using hfailed
    · exact .of_error ⟨_, htold₂⟩ e
  refine hopen.bind fun err₃ d₃ hreset₃ => ?_
  refine (always_writeMark hacks req.data hreset₃).bind fun r d₄ ⟨hsame₄, hreset₄⟩ => ?_
  obtain ⟨w₄, err₄⟩ := r
  refine (always_flushMark hacks hreset₄).bind fun r d₅ ⟨hsame₅, hreset₅⟩ => ?_
  obtain ⟨w₅, err₅⟩ := r
  obtain ⟨l₅, htold₅⟩ := hreset₅.told
  refine (always_ack (htold₅.shown hacks) req err₅).bind fun _ d' hd' => ?_
  rw [hd']
  have hpending₅ : w₅.pendingAcks = [] := by rw [hsame₅.pendingAcks, hsame₄.pendingAcks, hpending]
  have hfatal₅ : w₅.fatalErr = w.fatalErr := by rw [hsame₅.fatalErr, hsame₄.fatalErr, hsame.fatalErr]
  exact .done (ready_reset hkind hpending₅ (fun hfatal => (h.clean (hfatal₅ ▸ hfatal)).2.2.2) htaken hreset₅)

theorem always_close (hkind : req.kind = .close) (h : Ready opened acks w d) (htaken : taken = acks ++ [req]) :
    (w.close req).Always Acts (Shown opened taken) (fun _ d' => d'.Sound opened ∧ d'.acks = taken) d := by
  have hacks : acks <+: taken := htaken ▸ List.prefix_append _ _
  unfold close
  refine (always_flush h.told hacks w).bind fun r d₁ ⟨hsame, htold₁, _⟩ => ?_
  obtain ⟨w₁, err₁⟩ := r
  dsimp only
  rw [ackPending_nil (hsame.pendingAcks.trans h.pendingAcks)]
  simp only [Program.pure_eq, Program.done_bind]
  refine Program.Always.bind (.ask (htold₁.shown hacks) fun _ _ hacts => hacts) fun closeErr d₂ hacts => ?_
  obtain ⟨isOpen, rfl⟩ := acts_close hacts
  have htold₂ : Disk.Told opened (d.ledger opened) acks { d₁ with isOpen } := htold₁.grows rfl List.prefix_rfl (.inl rfl)
  refine (always_ack (htold₂.shown hacks) req _).imp fun _ d' hd' => ?_
  rw [hd', acks_acked, htold₂.acks, htaken]
  exact ⟨htold₂.sound.closed hkind _, rfl⟩

def TurnEnds (opened : Bytes) (taken : List Request) (next : Option Writer) (d : Disk) : Prop :=
  match next with
  | some w => Ready opened taken w d
  | none => (d.Sound opened ∧ d.acks = taken) ∧ ∃ req ∈ taken, req.kind = .close

theorem always_handle (hmode : cfg.syncMode = .always) (h : Ready opened acks w d) (htaken : taken = acks ++ [req]) :
    (w.handle cfg req).Always Acts (Shown opened taken) (TurnEnds opened taken) d := by
  unfold handle
  split
  · exact (always_append hmode ‹_› h htaken).bind fun w' d' hready => .done hready
  · exact (always_reset ‹_› h htaken).bind fun w' d' hready => .done hready
  · rename_i hkind
    refine (always_close hkind h htaken).bind fun _ d' hclosed => .done ⟨hclosed, req, ?_, hkind⟩
    simp [htaken]

end Writer

end AegisMesh.Registry.FileRegistryWAL
