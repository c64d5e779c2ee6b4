import AegisMesh.Trace.Async

/-! # Closing the trace writer -/

open Lib

namespace AegisMesh.Trace

namespace AsyncWriter

def items (w : AsyncWriter) : List Item := w.written ++ w.queue.contents

def Place.between : Place → Option TraceRecord
  | .sending record => some record
  | .counting record => some record
  | .retrying record => some record
  | _ => none

def Place.sent : Place → Option TraceRecord
  | .inSend record => some record
  | .wrote record => some record
  | _ => none

variable {cfg : AsyncConfig} {encode : TraceRecord → List UInt8} {opened : List UInt8}

structure Sound (encode : TraceRecord → List UInt8) (opened : List UInt8) (w : AsyncWriter) : Prop where
  content : w.file ++ w.buffered = opened ++ w.written.flatMap fun item => encode item.2
  flushed : w.pending = 0 → w.buffered = []
  nodup : (w.items.map Prod.fst).Nodup
  stopped : w.runner ≠ .looping → w.stopped = true
  closed : w.stopped = true → w.closed = true
  done : w.once = .done → w.runner = .ended
  ended : w.runner = .ended → w.buffered = [] ∧ w.queue.contents = []

structure Fits (w : AsyncWriter) (id : ℕ) (place : Place) : Prop where
  between : place.between ≠ none → w.runner ≠ .ended
  sent : ∀ record, place.sent = some record → (id, record) ∈ w.items
  stopping : place = .stopping → w.closed = true
  closed : place = .closed → w.runner = .ended

structure Whole (encode : TraceRecord → List UInt8) (opened : List UInt8) (p : Threads AsyncWriter Thread) : Prop where
  sound : Sound encode opened p.shared
  thread : ∀ id t, p.threads.lookup id = some t → Fits p.shared id t.place
  known : ∀ item ∈ p.shared.items, ∃ t, p.threads.lookup item.1 = some t ∧ t.place.sent = some item.2

/-! ## The goroutine -/

theorem bufferWrite_content (w : AsyncWriter) (p : List UInt8) :
    (w.bufferWrite p).file ++ (w.bufferWrite p).buffered = w.file ++ w.buffered ++ p := by
  unfold bufferWrite
  dsimp only
  split_ifs with hfits hempty hrest
  · simp
  · simp [hempty]
  · simp
  · simp

theorem bufferWrite_eq (w : AsyncWriter) (p : List UInt8) :
    w.bufferWrite p = { w with file := (w.bufferWrite p).file, buffered := (w.bufferWrite p).buffered } := by
  unfold bufferWrite
  dsimp only
  split_ifs <;> rfl

theorem flush_content (w : AsyncWriter) : w.flush.file ++ w.flush.buffered = w.file ++ w.buffered := by
  unfold flush
  split
  · rfl
  · simp

theorem flush_eq (w : AsyncWriter) :
    w.flush = { w with file := w.flush.file, buffered := w.flush.buffered, pending := w.flush.pending } := by
  unfold flush
  split <;> rfl

theorem flush_buffered {w : AsyncWriter} (h : w.pending = 0 → w.buffered = []) : w.flush.buffered = [] := by
  unfold flush
  split
  · exact h ‹_›
  · rfl

structure Writes (w w' : AsyncWriter) : Prop where
  queue : w'.queue = w.queue
  once : w'.once = w.once
  closed : w'.closed = w.closed
  stopped : w'.stopped = w.stopped
  runner : w'.runner = w.runner

theorem writes_flush (w : AsyncWriter) : Writes w w.flush ∧ w.flush.written = w.written := by
  rw [flush_eq]
  exact ⟨⟨rfl, rfl, rfl, rfl, rfl⟩, rfl⟩

theorem writeRecord_spec (cfg : AsyncConfig) (encode : TraceRecord → List UInt8) (w : AsyncWriter) (item : Item) :
    Writes w (w.writeRecord cfg encode item) ∧ (w.writeRecord cfg encode item).written = w.written ++ [item] ∧
      (w.writeRecord cfg encode item).file ++ (w.writeRecord cfg encode item).buffered =
        w.file ++ w.buffered ++ encode item.2 ∧
      ((w.writeRecord cfg encode item).pending = 0 → (w.writeRecord cfg encode item).buffered = []) := by
  have hcontent := w.bufferWrite_content (encode item.2)
  unfold writeRecord
  rw [bufferWrite_eq]
  dsimp only
  split
  · obtain ⟨hwrites, hwritten⟩ := writes_flush
      { w with
        file := (w.bufferWrite (encode item.2)).file
        buffered := (w.bufferWrite (encode item.2)).buffered
        pending := w.pending + 1
        written := w.written ++ [item] }
    refine ⟨⟨hwrites.queue, hwrites.once, hwrites.closed, hwrites.stopped, hwrites.runner⟩, hwritten, ?_, fun _ => ?_⟩
    · rw [flush_content, ← hcontent]
    · exact flush_buffered fun hzero => absurd hzero (Nat.succ_ne_zero _)
  · exact ⟨⟨rfl, rfl, rfl, rfl, rfl⟩, rfl, hcontent, fun hzero => absurd hzero (Nat.succ_ne_zero _)⟩

/-! ## Turns -/

variable {p : Threads AsyncWriter Thread} {w w' : AsyncWriter} {id : ℕ} {place place' : Place} {record : TraceRecord}

theorem Fits.mono (h : Fits w id place) (hitems : w.items ⊆ w'.items) (hclosed : w.closed = true → w'.closed = true)
    (hended : w.runner = .ended → w'.runner = .ended) (hbetween : place.between ≠ none → w'.runner ≠ .ended) :
    Fits w' id place where
  between := hbetween
  sent record hsent := hitems (h.sent record hsent)
  stopping hstopping := hclosed (h.stopping hstopping)
  closed hclosed := hended (h.closed hclosed)

theorem Whole.turn (h : Whole encode opened p) (hsound : Sound encode opened w') (hitems : w'.items = p.shared.items)
    (hclosed : w'.closed = p.shared.closed) (hended : p.shared.runner = .ended → w'.runner = .ended)
    (hbetween : w'.runner = .ended → p.shared.runner = .ended ∨
      ∀ id t, p.threads.lookup id = some t → t.place.between = none) :
    Whole encode opened { p with shared := w' } := by
  refine ⟨hsound, fun id t ht => ?_, fun item hitem => h.known item (hitems ▸ hitem)⟩
  have hfits := h.thread id t ht
  refine hfits.mono (by rw [hitems]; exact List.Subset.refl _) (fun hc => hclosed.trans hc) hended fun hb hend => ?_
  rcases hbetween hend with hbefore | hnone
  · exact hfits.between hb hbefore
  · exact hb (hnone id t ht)

def Clear (p : Threads AsyncWriter Thread) : ThreadEvent Call ℤ Turn → Prop
  | .outside .finish => p.shared.runner = .draining → p.shared.queue.buffer = [] →
    ∀ id t, p.threads.lookup id = some t → t.place.between = none
  | _ => True

theorem Sound.writes (h : Sound encode opened w) (queue : Channel Item) (hwrites : Writes { w with queue } w')
    (hitems : w'.items = w.items) (hcontent : w'.file ++ w'.buffered = opened ++ w'.written.flatMap fun item => encode item.2)
    (hflushed : w'.pending = 0 → w'.buffered = [])
    (hended : w.runner = .ended → w'.buffered = [] ∧ queue.contents = []) : Sound encode opened w' where
  content := hcontent
  flushed := hflushed
  nodup := hitems ▸ h.nodup
  stopped := by
    rw [hwrites.runner, hwrites.stopped]
    exact h.stopped
  closed := by
    rw [hwrites.stopped, hwrites.closed]
    exact h.closed
  done := by
    rw [hwrites.once, hwrites.runner]
    exact h.done
  ended := by
    rw [hwrites.runner, hwrites.queue]
    exact hended

theorem Sound.flush (h : Sound encode opened w) : Sound encode opened w.flush := by
  obtain ⟨hwrites, hwritten⟩ := writes_flush w
  have hbuffered := flush_buffered h.flushed
  refine h.writes w.queue hwrites ?_ ?_ (fun _ => hbuffered) fun hend => ⟨hbuffered, (h.ended hend).2⟩
  · rw [items, items, hwritten, hwrites.queue]
  · rw [flush_content, hwritten, h.content]

theorem whole_record (h : Whole encode opened p) :
    Whole encode opened { p with shared := p.shared.turn cfg encode .record } := by
  have hsound := h.sound
  simp only [AsyncWriter.turn]
  split
  · exact h
  rename_i hrunning
  cases hreceive : p.shared.queue.receive with
  | none => exact h
  | some received =>
    obtain ⟨item, queue⟩ := received
    dsimp only
    obtain ⟨hwrites, hwritten, hcontent, hflushed⟩ := writeRecord_spec cfg encode { p.shared with queue } item
    generalize writeRecord cfg encode { p.shared with queue } item = w' at hwrites hwritten hcontent hflushed
    have hitems : w'.items = p.shared.items := by
      rw [items, items, hwritten, hwrites.queue, Channel.contents_receive hreceive, List.append_assoc]
      rfl
    have hrunner : w'.runner ≠ .ended := by
      rw [hwrites.runner]
      exact hrunning
    have hkept := hsound.writes queue hwrites hitems (by
      rw [hcontent, hwritten, hsound.content, List.flatMap_append, List.append_assoc, List.flatMap_singleton])
      hflushed fun hend => absurd hend hrunning
    exact h.turn hkept hitems hwrites.closed (fun hend => absurd hend hrunning) fun hend => absurd hend hrunner

theorem whole_stop (h : Whole encode opened p) :
    Whole encode opened { p with shared := p.shared.turn cfg encode .stop } := by
  have hsound := h.sound
  simp only [AsyncWriter.turn]
  split
  · rename_i hstop
    refine h.turn ⟨hsound.content, hsound.flushed, hsound.nodup, fun _ => hstop.2, hsound.closed, ?_, nofun⟩ rfl rfl ?_
      nofun
    · intro hdone
      rw [hsound.done hdone] at hstop
      cases hstop.1
    · intro hend
      rw [hend] at hstop
      cases hstop.1
  · exact h

theorem whole_finish (h : Whole encode opened p) (hclear : Clear p (.outside .finish)) :
    Whole encode opened { p with shared := p.shared.turn cfg encode .finish } := by
  have hsound := h.sound
  simp only [AsyncWriter.turn]
  split
  · rename_i hfinish
    obtain ⟨hwrites, hwritten⟩ := writes_flush p.shared
    have hflush := hsound.flush
    have hstopped : p.shared.flush.stopped = true := by
      rw [hwrites.stopped]
      exact hsound.stopped (by rw [hfinish.1]; decide)
    have hempty : p.shared.flush.queue.contents = [] := by
      rw [hwrites.queue]
      exact Channel.contents_of_empty hfinish.2
    exact h.turn ⟨hflush.content, hflush.flushed, hflush.nodup, fun _ => hstopped, hflush.closed, fun _ => rfl,
        fun _ => ⟨flush_buffered hsound.flushed, hempty⟩⟩
      (by rw [items, items, hwritten, hwrites.queue]) hwrites.closed (fun _ => rfl)
      (fun _ => .inr (hclear hfinish.1 hfinish.2))
  · exact h

theorem whole_turn (h : Whole encode opened p) (turn : Turn) (hclear : Clear p (.outside turn)) :
    Whole encode opened { p with shared := p.shared.turn cfg encode turn } := by
  cases turn with
  | record => exact whole_record h
  | tick =>
    simp only [AsyncWriter.turn]
    split
    · obtain ⟨hwrites, hwritten⟩ := writes_flush p.shared
      refine h.turn h.sound.flush (by rw [items, items, hwritten, hwrites.queue]) hwrites.closed ?_ ?_
      · rw [hwrites.runner]
        exact id
      · rw [hwrites.runner]
        exact .inl
    · exact h
  | stop => exact whole_stop h
  | finish => exact whole_finish h hclear

/-! ## Moves of the calls -/

structure Quiet (w w' : AsyncWriter) (place place' : Place) : Prop where
  queue : w'.queue = w.queue
  written : w'.written = w.written
  file : w'.file = w.file
  buffered : w'.buffered = w.buffered
  pending : w'.pending = w.pending
  runner : w'.runner = w.runner
  closed : w.closed = true → w'.closed = true
  stopped : w.stopped = true → w'.stopped = true
  order : w'.stopped = true → w'.closed = true
  done : w'.once = .done → w'.runner = .ended
  sent : place'.sent = place.sent
  between : place'.between ≠ none → w'.runner ≠ .ended
  stopping : place' = .stopping → w'.closed = true
  ended : place' = .closed → w'.runner = .ended

structure Sends (id : ℕ) (w w' : AsyncWriter) (place place' : Place) (record : TraceRecord) : Prop where
  between : place.between = some record
  sent : place'.sent = some record
  contents : w'.queue.contents = w.queue.contents ++ [(id, record)]
  rest : w' = { w with queue := w'.queue }

theorem Sound.not_ended (h : Sound encode opened w) (hopen : w.closed = false) : w.runner ≠ .ended := by
  intro hend
  have hclosed := h.closed (h.stopped (by rw [hend]; decide))
  rw [hopen] at hclosed
  cases hclosed

theorem Sound.quiet (h : Sound encode opened w) {sampleCounter : ℕ} {dropped : List String}
    (hsent : place'.sent = place.sent) (hbetween : place'.between ≠ none → w.runner ≠ .ended)
    (hstopping : place' ≠ .stopping) (hclosed : place' ≠ .closed) :
    Quiet w { w with sampleCounter, dropped } place place' :=
  ⟨rfl, rfl, rfl, rfl, rfl, rfl, id, id, h.closed, h.done, hsent, hbetween, fun hp => absurd hp hstopping,
    fun hp => absurd hp hclosed⟩

theorem Quiet.closing {once : Once} {closed stopped : Bool} (hclosed : w.closed = true → closed = true)
    (hstopped : w.stopped = true → stopped = true)
    (horder : stopped = true → closed = true) (hdone : once = .done → w.runner = .ended)
    (hsent : place'.sent = place.sent) (hbetween : place'.between = none) (hstopping : place' = .stopping → closed = true)
    (hended : place' = .closed → w.runner = .ended) : Quiet w { w with once, closed, stopped } place place' :=
  ⟨rfl, rfl, rfl, rfl, rfl, rfl, hclosed, hstopped, horder, hdone, hsent, fun hb => absurd hbetween hb, hstopping, hended⟩

theorem offer_cases {otherwise : AsyncWriter × Place} (hbetween : place.between = some record)
    (h : w.offer id record otherwise = (w', place')) :
    Sends id w w' place place' record ∨ otherwise = (w', place') := by
  unfold offer at h
  split at h
  · rename_i queue hqueue
    cases h
    exact .inl ⟨hbetween, rfl, Channel.contents_trySend hqueue, rfl⟩
  · exact .inr h

theorem movePlace_cases {now : ℤ} (hsound : Sound encode opened w) (hfits : Fits w id place)
    (h : movePlace cfg id w place now = some (w', place')) :
    Quiet w w' place place' ∨ ∃ record, Sends id w w' place place' record := by
  cases place with
  | checking record =>
    simp only [movePlace] at h
    split at h
    · cases h
      exact .inl (hsound.quiet rfl (by simp [Place.between]) (by simp) (by simp))
    · rename_i hopen
      cases h
      exact .inl (hsound.quiet rfl (fun _ => hsound.not_ended (by simpa using hopen)) (by simp) (by simp))
  | sending record =>
    have hbetween : (Place.sending record).between = some record := rfl
    have hrunning : w.runner ≠ .ended := hfits.between (by simp [hbetween])
    simp only [movePlace] at h
    split at h
    · cases h
      exact .inr ⟨record, rfl, rfl, Channel.contents_send, rfl⟩
    · rcases offer_cases hbetween (Option.some.inj h) with hsends | hfull
      · exact .inr ⟨record, hsends⟩
      · cases hfull
        exact .inl (hsound.quiet rfl (fun _ => hrunning) (by simp) (by simp))
    · rcases offer_cases hbetween (Option.some.inj h) with hsends | hfull
      · exact .inr ⟨record, hsends⟩
      · cases hfull
        exact .inl (hsound.quiet rfl (by simp [Place.between]) (by simp) (by simp))
  | counting record =>
    have hrunning : w.runner ≠ .ended := hfits.between (by simp [Place.between])
    simp only [movePlace] at h
    split at h
    · cases h
      exact .inl (hsound.quiet rfl (by simp [Place.between]) (by simp) (by simp))
    · cases h
      exact .inl (hsound.quiet rfl (fun _ => hrunning) (by simp) (by simp))
  | retrying record =>
    have hbetween : (Place.retrying record).between = some record := rfl
    rcases offer_cases hbetween (Option.some.inj h) with hsends | hfull
    · exact .inr ⟨record, hsends⟩
    · cases hfull
      exact .inl (hsound.quiet rfl (by simp [Place.between]) (by simp) (by simp))
  | inSend record =>
    simp only [movePlace] at h
    split at h
    · cases h
    · cases h
      exact .inl (hsound.quiet rfl (by simp [Place.between]) (by simp) (by simp))
  | closing =>
    simp only [movePlace] at h
    split at h
    · cases h
      exact .inl (.closing (fun h => h) (fun h => h) hsound.closed nofun rfl rfl nofun nofun)
    · cases h
    · rename_i honce
      cases h
      exact .inl (.closing (fun h => h) (fun h => h) hsound.closed hsound.done rfl rfl nofun
        fun _ => hsound.done honce)
  | storing =>
    cases h
    exact .inl (.closing (fun _ => rfl) (fun h => h) (fun _ => rfl) hsound.done rfl rfl (fun _ => rfl) nofun)
  | stopping =>
    cases h
    exact .inl (.closing (fun h => h) (fun _ => rfl) (fun _ => hfits.stopping rfl) hsound.done rfl rfl nofun nofun)
  | joining =>
    simp only [movePlace] at h
    split at h
    · rename_i hend
      cases h
      exact .inl (.closing (fun h => h) (fun h => h) hsound.closed (fun _ => hend) rfl rfl nofun fun _ => hend)
    · cases h
  | wrote record => cases h
  | dropped reason => cases h
  | refused => cases h
  | closed => cases h

/-! ## Runs -/

variable {t : Thread}

theorem Quiet.items (h : Quiet w w' place place') : w'.items = w.items := by
  rw [AsyncWriter.items, AsyncWriter.items, h.written, h.queue]

theorem Quiet.sound (h : Quiet w w' place place') (hsound : Sound encode opened w) : Sound encode opened w' where
  content := by rw [h.file, h.buffered, h.written, hsound.content]
  flushed := by
    rw [h.pending, h.buffered]
    exact hsound.flushed
  nodup := h.items ▸ hsound.nodup
  stopped hrunner := h.stopped (hsound.stopped (h.runner ▸ hrunner))
  closed := h.order
  done := h.done
  ended hend := by
    rw [h.buffered, h.queue]
    exact hsound.ended (h.runner ▸ hend)

theorem whole_quiet (h : Whole encode opened p) (ht : p.threads.lookup id = some t)
    (hq : Quiet p.shared w' t.place place') :
    Whole encode opened { shared := w', threads := p.threads.insert id { t with place := place' } } := by
  refine ⟨hq.sound h.sound, fun other u hu => ?_, fun item hitem => ?_⟩
  · rw [Dict.lookup_insert'] at hu
    split at hu
    · rename_i hown
      cases hu
      refine ⟨hq.between, fun record hsent => ?_, hq.stopping, hq.ended⟩
      rw [hown, hq.items]
      exact (h.thread id t ht).sent record (hq.sent ▸ hsent)
    · have hfits := h.thread other u hu
      refine hfits.mono (by rw [hq.items]; exact List.Subset.refl _) hq.closed (fun hend => hq.runner.trans hend) fun hb => ?_
      rw [hq.runner]
      exact hfits.between hb
  · obtain ⟨u, hu, hsent⟩ := h.known item (hq.items ▸ hitem)
    by_cases hown : item.1 = id
    · obtain rfl : t = u := Option.some.inj (ht.symm.trans (hown ▸ hu))
      exact ⟨_, by rw [hown]; exact AList.lookup_insert _, hq.sent.trans hsent⟩
    · exact ⟨u, by rw [← hu]; exact AList.lookup_insert_ne hown, hsent⟩

theorem Sends.items (h : Sends id w w' place place' record) :
    w'.items = w.items ++ [(id, record)] := by
  rw [AsyncWriter.items, AsyncWriter.items, h.contents, h.rest, List.append_assoc]

theorem whole_sends (h : Whole encode opened p) (ht : p.threads.lookup id = some t)
    (hs : Sends id p.shared w' t.place place' record) :
    Whole encode opened { shared := w', threads := p.threads.insert id { t with place := place' } } := by
  have hitems := hs.items
  have hsound := h.sound
  have hrunning : p.shared.runner ≠ .ended := (h.thread id t ht).between (by simp [hs.between])
  have hsub : p.shared.items ⊆ w'.items := by
    rw [hitems]
    exact List.subset_append_left _ _
  -- The call has sent nothing before, so its id is new among what was sent.
  have hfresh : id ∉ p.shared.items.map Prod.fst := by
    intro hmem
    obtain ⟨item, hitem, rfl⟩ := List.mem_map.mp hmem
    obtain ⟨u, hu, hsent⟩ := h.known item hitem
    obtain rfl : t = u := Option.some.inj (ht.symm.trans hu)
    have hbetween := hs.between
    cases hplace : t.place <;> rw [hplace] at hsent hbetween <;> simp [Place.sent, Place.between] at hsent hbetween
  have hnodup : (w'.items.map Prod.fst).Nodup := by
    rw [hitems, List.map_append, List.map_singleton]
    exact List.nodup_append.mpr ⟨hsound.nodup, List.nodup_singleton _, by
      rintro a ha b hb rfl
      rw [List.mem_singleton.mp hb] at ha
      exact hfresh ha⟩
  rw [hs.rest] at hnodup hsub hitems ⊢
  refine ⟨⟨hsound.content, hsound.flushed, hnodup, hsound.stopped, hsound.closed, hsound.done,
    fun hend => absurd hend hrunning⟩, fun other u hu => ?_, fun item hitem => ?_⟩
  · rw [Dict.lookup_insert'] at hu
    split at hu
    · rename_i hown
      cases hu
      have hplace := hs.sent
      refine ⟨fun _ => hrunning, fun record' hsent => ?_, ?_, ?_⟩
      · obtain rfl : record = record' := Option.some.inj (hplace.symm.trans hsent)
        rw [hown]
        exact hitems ▸ List.mem_append_right _ (List.mem_singleton_self _)
      · rintro rfl
        cases hplace
      · rintro rfl
        cases hplace
    · have hfits := h.thread other u hu
      exact hfits.mono hsub (fun hc => hc) (fun hend => hend) hfits.between
  · rw [hitems] at hitem
    rcases List.mem_append.mp hitem with hold | hnew
    · obtain ⟨u, hu, hsent⟩ := h.known item hold
      have hother : item.1 ≠ id := fun hown => hfresh (List.mem_map.mpr ⟨item, hold, hown⟩)
      exact ⟨u, by rw [← hu]; exact AList.lookup_insert_ne hother, hsent⟩
    · rw [List.mem_singleton.mp hnew]
      exact ⟨_, AList.lookup_insert _, hs.sent⟩

theorem whole_step (h : Whole encode opened p) {e : ThreadEvent Call ℤ Turn} (hclear : Clear p e) :
    Whole encode opened ((calls cfg encode).step p e) := by
  have hdid := (calls cfg encode).did_step p e
  generalize (calls cfg encode).step p e = p' at hdid ⊢
  cases hdid with
  | refused => exact h
  | absent => exact h
  | blocked => exact h
  | @called id k hfresh =>
    refine ⟨h.sound, Dict.forall_lookup_insert.mpr ⟨?_, fun other u _ hu => h.thread other u hu⟩, fun item hitem => ?_⟩
    · cases k <;> exact ⟨by simp [calls, Place.between], by simp [calls, Place.sent], by simp [calls], by simp [calls]⟩
    · obtain ⟨u, hu, hsent⟩ := h.known item hitem
      have hother : item.1 ≠ id := by
        rintro rfl
        rw [hfresh] at hu
        cases hu
      exact ⟨u, by rw [← hu]; exact AList.lookup_insert_ne hother, hsent⟩
  | @moved id now t w' t' ht hmove =>
    obtain ⟨⟨w₁, place'⟩, hplace, heq⟩ := Option.map_eq_some_iff.mp hmove
    cases heq
    rcases movePlace_cases h.sound (h.thread id t ht) hplace with hquiet | ⟨record, hsends⟩
    · exact whole_quiet h ht hquiet
    · exact whole_sends h ht hsends
  | changed turn => exact whole_turn h turn hclear

theorem whole_run {events : List (ThreadEvent Call ℤ Turn)}
    (hclear : Along (calls cfg encode).step Clear { shared := newAsyncJSONLWriter cfg opened } events) :
    Whole encode opened ((calls cfg encode).run (newAsyncJSONLWriter cfg opened) events) := by
  have hstart : Whole encode opened { shared := newAsyncJSONLWriter cfg opened } := by
    refine ⟨⟨?_, fun _ => rfl, List.nodup_nil, nofun, nofun, nofun, nofun⟩, fun id t ht => ?_, fun item hitem => ?_⟩
    · simp [newAsyncJSONLWriter]
    · simp at ht
    · cases hitem
  exact run_invariant_along (I := Whole encode opened) (fun _ _ hp he => whole_step hp he) hstart hclear

def OfCall (call : Call) : Place → Prop
  | .checking record => call = .write record
  | .sending record | .counting record | .retrying record | .inSend record | .wrote record =>
    ∃ given now, call = .write given ∧ record = given.stamped now
  | _ => True

theorem ofCall_move {now : ℤ} {call : Call} (h : OfCall call place)
    (hmove : movePlace cfg id w place now = some (w', place')) :
    OfCall call place' := by
  cases place with
  | checking record =>
    simp only [movePlace] at hmove
    split at hmove <;> cases hmove
    · trivial
    · exact ⟨record, now, h, rfl⟩
  | sending record =>
    simp only [movePlace, offer, drop] at hmove
    split at hmove
    · cases hmove
      exact h
    · split at hmove <;> cases hmove <;> exact h
    · split at hmove <;> cases hmove
      · exact h
      · trivial
  | counting record =>
    simp only [movePlace, drop] at hmove
    split at hmove <;> cases hmove
    · trivial
    · exact h
  | retrying record =>
    simp only [movePlace, offer, drop] at hmove
    split at hmove <;> cases hmove
    · exact h
    · trivial
  | inSend record =>
    simp only [movePlace] at hmove
    split at hmove <;> cases hmove
    exact h
  | closing =>
    simp only [movePlace] at hmove
    split at hmove <;> cases hmove <;> trivial
  | joining =>
    simp only [movePlace] at hmove
    split at hmove <;> cases hmove
    trivial
  | storing | stopping =>
    cases hmove
    trivial
  | wrote record | dropped reason | refused | closed => cases hmove

theorem ofCall_run (cfg : AsyncConfig) (encode : TraceRecord → List UInt8) (w : AsyncWriter)
    (events : List (ThreadEvent Call ℤ Turn)) :
    ∀ id t, ((calls cfg encode).run w events).threads.lookup id = some t → OfCall t.call t.place := by
  have hkeeps : ThreadSystem.Keeps (fun _ => True) (fun _ _ t => OfCall t.call t.place)
      ((calls cfg encode).run w events) := by
    refine ThreadSystem.Keeps.run (calls cfg encode) ?_ ?_ ?_ trivial events
    · intro w id call _
      cases call with
      | write record => rfl
      | close => trivial
    · intro w id t now w' t' _ h hmove
      obtain ⟨⟨w₁, place'⟩, hplace, heq⟩ := Option.map_eq_some_iff.mp hmove
      cases heq
      exact ⟨trivial, ofCall_move h hplace, fun _ _ _ hu => hu⟩
    · exact fun _ _ _ => ⟨trivial, fun _ _ ht => ht⟩
  exact hkeeps.thread

/-- Unless a `Write` is on its way to the queue when the goroutine finds it empty: when a `Close` has returned the
file holds the records of all the writes that sent theirs, each once, and no `Write` waits. -/
theorem closed_writer_keeps_records (cfg : AsyncConfig) (encode : TraceRecord → List UInt8) (opened : List UInt8)
    (events : List (ThreadEvent Call ℤ Turn))
    (hclear : Along (calls cfg encode).step Clear { shared := newAsyncJSONLWriter cfg opened } events) :
    let p := (calls cfg encode).run (newAsyncJSONLWriter cfg opened) events
    (p.shared.runner = .ended → p.shared.queue.waiting = []) ∧
    ∀ closer call, p.threads.lookup closer = some { call, place := .closed } →
      ∃ written : List Item, p.shared.file = opened ++ (written.flatMap fun item => encode item.2) ∧
        (written.map Prod.fst).Nodup ∧
        (∀ id record, (id, record) ∈ written ↔
          ∃ call, p.threads.lookup id = some { call, place := .wrote record } ∨
            p.threads.lookup id = some { call, place := .inSend record }) ∧
        ∀ id call record, p.threads.lookup id = some { call, place := .wrote record } →
          ∃ given now, call = .write given ∧ record = given.stamped now := by
  intro p
  have hwhole : Whole encode opened p := whole_run hclear
  constructor
  · intro hend
    exact (List.append_eq_nil_iff.mp (hwhole.sound.ended hend).2).2
  · intro closer call hcloser
    have hend : p.shared.runner = .ended := (hwhole.thread closer _ hcloser).closed rfl
    obtain ⟨hbuffered, hcontents⟩ := hwhole.sound.ended hend
    have hitems : p.shared.items = p.shared.written := by rw [items, hcontents, List.append_nil]
    refine ⟨p.shared.written, ?_, hitems ▸ hwhole.sound.nodup, fun id record => ⟨fun hmem => ?_, ?_⟩, ?_⟩
    · rw [← hwhole.sound.content, hbuffered, List.append_nil]
    · obtain ⟨⟨call, place⟩, ht, hsent⟩ := hwhole.known (id, record) (hitems ▸ hmem)
      refine ⟨call, ?_⟩
      cases place with
      | wrote other =>
        cases hsent
        exact .inl ht
      | inSend other =>
        cases hsent
        exact .inr ht
      | _ => cases hsent
    · rintro ⟨call, ht | ht⟩
      · exact hitems ▸ (hwhole.thread id _ ht).sent record rfl
      · exact hitems ▸ (hwhole.thread id _ ht).sent record rfl
    · exact fun id call record ht => ofCall_run cfg encode _ events id _ ht

/-! ## Late writes -/

def oneRecord : TraceRecord := { traceID := "t", timestampUnixMilli := 1 }

def oneByte : TraceRecord → List UInt8 := fun _ => [10]

def closeWhile (turns : List Turn) : List (ThreadEvent Call ℤ Turn) :=
  [.call 2 .close, .move 2 0, .move 2 0, .move 2 0] ++ turns.map .outside ++ [.move 2 0]

def runOf (cfg : AsyncConfig) (events : List (ThreadEvent Call ℤ Turn)) : Threads AsyncWriter Thread :=
  (calls cfg oneByte).run (newAsyncJSONLWriter cfg []) events

def lateWrites : List (ThreadEvent Call ℤ Turn) :=
  [.call 0 (.write oneRecord), .move 0 0, .call 1 (.write oneRecord), .move 1 0] ++ closeWhile [.stop, .finish] ++
    [.move 0 0, .move 0 0, .move 1 0, .move 1 0]

theorem late_writes_lost :
    ((runOf {} lateWrites).threads.lookup 2 = some ⟨.close, .closed⟩ ∧
      (runOf {} lateWrites).threads.lookup 0 = some ⟨.write oneRecord, .wrote oneRecord⟩ ∧
      (runOf {} lateWrites).shared.dropped = [] ∧ (runOf {} lateWrites).shared.file = []) ∧
    (runOf { overflowPolicy := .block, queueSize := 1 } lateWrites).shared.runner = .ended ∧
      (runOf { overflowPolicy := .block, queueSize := 1 } lateWrites).threads.lookup 1 =
        some ⟨.write oneRecord, .inSend oneRecord⟩ ∧
      (1, oneRecord) ∈ (runOf { overflowPolicy := .block, queueSize := 1 } lateWrites).shared.queue.waiting := by
  decide +kernel

def earlyWrite : List (ThreadEvent Call ℤ Turn) :=
  [.call 0 (.write oneRecord), .move 0 0, .move 0 0] ++ closeWhile [.stop, .record, .finish]

theorem early_write_in_file :
    ∃ written : List Item, (runOf {} earlyWrite).shared.file = [] ++ (written.flatMap fun item => oneByte item.2) ∧
      (written.map Prod.fst).Nodup ∧
      (∀ id record, (id, record) ∈ written ↔
        ∃ call, (runOf {} earlyWrite).threads.lookup id = some { call, place := .wrote record } ∨
          (runOf {} earlyWrite).threads.lookup id = some { call, place := .inSend record }) ∧
      ∀ id call record, (runOf {} earlyWrite).threads.lookup id = some { call, place := .wrote record } →
        ∃ given now, call = .write given ∧ record = given.stamped now := by
  refine (closed_writer_keeps_records {} oneByte [] earlyWrite ?_).2 2 .close (by decide +kernel)
  refine ⟨trivial, trivial, trivial, trivial, trivial, trivial, trivial, trivial, trivial, fun _ _ id t ht => ?_,
    trivial, trivial⟩
  have hnone : ∀ t ∈ Dict.values (runOf {} (earlyWrite.take 9)).threads, t.place.between = none := by decide +kernel
  exact hnone t (Dict.mem_values.mpr ⟨id, ht⟩)

end AsyncWriter

end AegisMesh.Trace
