import Abacus.Sink

/-!
# Writing to sinks

However many attempts it takes to write a text, the sink is left as if the text had been written in one
go: it takes what there is room for and fails if that is not all. So a line can be taken for one text, with
its newline.
-/

namespace Abacus.Sink

def write (s : Sink) (bytes : ByteArray) : Option SinkError × Sink :=
  match s.capacity with
  | none => (none, { s with written := s.written ++ bytes })
  | some capacity =>
    let room := capacity - s.written.size
    if bytes.size ≤ room then (none, { s with written := s.written ++ bytes })
    else
      (some (if s.stalls then .stalled else .full),
        { s with written := s.written ++ bytes.extract 0 room })

section Writing

theorem write_of_unbounded {s : Sink} (h : s.capacity = none) (bytes : ByteArray) :
    s.write bytes = (none, { s with written := s.written ++ bytes }) := by
  rw [write, h]

theorem write_of_fits {s : Sink} {bytes : ByteArray} {capacity : Nat}
    (hcapacity : s.capacity = some capacity) (h : bytes.size ≤ capacity - s.written.size) :
    s.write bytes = (none, { s with written := s.written ++ bytes }) := by
  rw [write, hcapacity]
  exact if_pos h

theorem write_of_exceeds {s : Sink} {bytes : ByteArray} {capacity : Nat}
    (hcapacity : s.capacity = some capacity) (h : ¬ bytes.size ≤ capacity - s.written.size) :
    s.write bytes = (some (if s.stalls then .stalled else .full),
      { s with written := s.written ++ bytes.extract 0 (capacity - s.written.size) }) := by
  rw [write, hcapacity]
  exact if_neg h

theorem extract_of_size_le {bytes : ByteArray} {n : Nat} (h : bytes.size ≤ n) :
    bytes.extract 0 n = bytes := by
  have whole := ByteArray.extract_zero_max_size (a := bytes) (i := n)
  rwa [Nat.max_eq_left h] at whole

theorem extract_append_of_le {a : ByteArray} {n : Nat} (h : n ≤ a.size) (b : ByteArray) :
    (a ++ b).extract 0 n = a.extract 0 n := by
  have nothing : b.extract 0 (n - a.size) = .empty := by
    rw [ByteArray.extract_eq_empty_iff]
    omega
  rw [ByteArray.extract_append, Nat.zero_sub, nothing, ByteArray.append_empty]

theorem extract_append_add (a b : ByteArray) (n : Nat) :
    (a ++ b).extract 0 (a.size + n) = a ++ b.extract 0 n := by
  rw [ByteArray.extract_append, extract_of_size_le (Nat.le_add_right _ n), Nat.zero_sub,
    Nat.add_sub_cancel_left]

/-- What does not fit of a text in two parts is cut off at the same place. -/
theorem write_append (s : Sink) (a b : ByteArray) :
    s.write (a ++ b) =
      match s.write a with
      | (some e, t) => (some e, t)
      | (none, t) => t.write b := by
  cases hcapacity : s.capacity with
  | none => simp [write, hcapacity, ByteArray.append_assoc]
  | some capacity =>
    by_cases hfirst : a.size ≤ capacity - s.written.size
    · rw [write_of_fits hcapacity hfirst]
      have hroom : capacity - (s.written ++ a).size = capacity - s.written.size - a.size := by
        rw [ByteArray.size_append, Nat.sub_sub]
      have hsize : (a ++ b).size = a.size + b.size := ByteArray.size_append
      by_cases hboth : (a ++ b).size ≤ capacity - s.written.size
      · have hrest : b.size ≤ capacity - (s.written ++ a).size := by omega
        have second : Sink.write { s with written := s.written ++ a } b = _ :=
          write_of_fits hcapacity hrest
        rw [write_of_fits hcapacity hboth, ← ByteArray.append_assoc]
        exact second.symm
      · have hrest : ¬ b.size ≤ capacity - (s.written ++ a).size := by omega
        have second : Sink.write { s with written := s.written ++ a } b = _ :=
          write_of_exceeds hcapacity hrest
        rw [write_of_exceeds hcapacity hboth, ByteArray.extract_append, extract_of_size_le hfirst,
          Nat.zero_sub, ← hroom, ← ByteArray.append_assoc]
        exact second.symm
    · have hboth : ¬ (a ++ b).size ≤ capacity - s.written.size := by
        rw [ByteArray.size_append]
        omega
      rw [write_of_exceeds hcapacity hfirst, write_of_exceeds hcapacity hboth,
        extract_append_of_le (Nat.le_of_not_le hfirst)]

theorem write_empty (s : Sink) {bytes : ByteArray} (h : bytes.size = 0) : s.write bytes = (none, s) := by
  rw [ByteArray.size_eq_zero_iff.mp h]
  unfold write
  split
  · simp
  · simp

theorem write_of_offer {s t : Sink} {bytes : ByteArray} {n : Nat} (h : s.offer bytes = (.ok n, t)) :
    n ≤ bytes.size ∧ s.write (bytes.extract 0 n) = (none, t) := by
  cases hcapacity : s.capacity with
  | none =>
    simp only [offer, hcapacity, Prod.mk.injEq, Except.ok.injEq] at h
    obtain ⟨rfl, rfl⟩ := h
    simp [write, hcapacity]
  | some capacity =>
    simp only [offer, hcapacity] at h
    split at h
    · obtain ⟨hcount, rfl⟩ := Prod.mk.inj h
      split at hcount
      · cases hcount
        exact ⟨Nat.zero_le _, write_empty s (by simp)⟩
      · cases hcount
    · obtain ⟨hcount, rfl⟩ := Prod.mk.inj h
      cases hcount
      have hfits : min bytes.size (capacity - s.written.size) ≤ capacity - s.written.size :=
        Nat.min_le_right _ _
      refine ⟨Nat.min_le_left _ _, ?_⟩
      simp [write, hcapacity, ByteArray.size_extract, hfits]

/-- An attempt that takes nothing meets a full sink. -/
theorem write_of_refused {s t : Sink} {bytes : ByteArray} {result : Except SinkError Nat}
    (h : s.offer bytes = (result, t)) (nonempty : bytes.size ≠ 0) (nothing : ∀ n, result ≠ .ok (n + 1)) :
    result = (if s.stalls then .ok 0 else .error .full) ∧
      s.write bytes = (some (if s.stalls then .stalled else .full), t) := by
  cases hcapacity : s.capacity with
  | none =>
    simp only [offer, hcapacity, Prod.mk.injEq] at h
    obtain ⟨n, hn⟩ := Nat.exists_eq_succ_of_ne_zero nonempty
    exact absurd (h.1.symm.trans (congrArg Except.ok hn)) (nothing n)
  | some capacity =>
    simp only [offer, hcapacity] at h
    split at h
    · rename_i full
      obtain ⟨hresult, rfl⟩ := Prod.mk.inj h
      have noRoom : capacity - s.written.size = 0 := by omega
      refine ⟨hresult.symm, ?_⟩
      simp only [write, hcapacity, noRoom, Nat.le_zero, nonempty, if_false, ByteArray.extract_same,
        ByteArray.append_empty]
      rw [← hcapacity]
    · rename_i some
      obtain ⟨n, hn⟩ := Nat.exists_eq_succ_of_ne_zero some
      obtain ⟨hresult, -⟩ := Prod.mk.inj h
      exact absurd (hresult.symm.trans (congrArg Except.ok hn)) (nothing n)

theorem writeAll_eq_write (s : Sink) (bytes : ByteArray) : s.writeAll bytes = s.write bytes := by
  fun_induction writeAll s bytes with
  | case1 s bytes empty => exact (write_empty s empty).symm
  | case2 s bytes nonempty e t offered =>
    obtain ⟨hresult, hwrite⟩ := write_of_refused offered nonempty (by simp)
    rw [hwrite]
    split at hresult
    · cases hresult
    · simp_all
  | case3 s bytes nonempty t offered =>
    obtain ⟨hresult, hwrite⟩ := write_of_refused offered nonempty (by simp)
    rw [hwrite]
    split at hresult
    · simp_all
    · cases hresult
  | case4 s bytes nonempty n t offered ih =>
    -- what was taken and what is left are written as one text
    obtain ⟨hle, hwrite⟩ := write_of_offer offered
    have split : bytes = bytes.extract 0 (n + 1) ++ bytes.extract (n + 1) bytes.size := by
      rw [← ByteArray.extract_eq_extract_append_extract (n + 1) (Nat.zero_le _) hle,
        ByteArray.extract_zero_size]
    have whole := s.write_append (bytes.extract 0 (n + 1)) (bytes.extract (n + 1) bytes.size)
    rw [← split, hwrite] at whole
    rw [ih, whole]

def lineBytes (line : String) : ByteArray := (line ++ "\n").toUTF8

/-- The text, the newline and the flush of a line come to one write and the flush. -/
theorem printLine_eq (s : Sink) (line : String) :
    s.printLine line =
      match s.write (lineBytes line) with
      | (some e, t) => (some e, t)
      | (none, t) => (if t.flushes then none else some .notFlushed, t) := by
  have bytes : lineBytes line = line.toUTF8 ++ "\n".toUTF8 := String.toByteArray_append
  rw [printLine, bytes, write_append]
  simp only [writeAll_eq_write]
  rcases s.write line.toUTF8 with ⟨_ | e, t⟩
  · rfl
  · rfl

end Writing

structure Reliable (s : Sink) : Prop where
  capacity : s.capacity = none
  flushes : s.flushes = true

theorem lineBytes_nonempty (line : String) : 0 < (lineBytes line).size := by
  have bytes : lineBytes line = line.toUTF8 ++ "\n".toUTF8 := String.toByteArray_append
  have newline : "\n".toUTF8.size = 1 := by decide
  rw [bytes, ByteArray.size_append, newline]
  omega

theorem printLine_of_write {s t : Sink} {line : String} {result : Option SinkError}
    (h : s.write (lineBytes line) = (result, t)) :
    s.printLine line = (result.or (if t.flushes then none else some .notFlushed), t) := by
  rw [printLine_eq, h]
  cases result <;> rfl

theorem Reliable.printLine {s : Sink} (h : s.Reliable) (line : String) :
    s.printLine line = (none, { s with written := s.written ++ lineBytes line }) := by
  rw [printLine_of_write (write_of_unbounded h.capacity (lineBytes line))]
  dsimp only
  rw [h.flushes]
  rfl

def Grows (s t : Sink) : Prop := ∃ more, t.written = s.written ++ more

theorem Grows.refl (s : Sink) : s.Grows s := ⟨.empty, by simp⟩

theorem Grows.trans {s t u : Sink} (h : s.Grows t) (h' : t.Grows u) : s.Grows u := by
  obtain ⟨more, ht⟩ := h
  obtain ⟨more', hu⟩ := h'
  exact ⟨more ++ more', by rw [hu, ht, ByteArray.append_assoc]⟩

/-- After the first sink comes the second one: it holds as much or more and is of the same kind. -/
structure Continues (s t : Sink) : Prop where
  grows : s.Grows t
  capacity : t.capacity = s.capacity
  flushes : t.flushes = s.flushes

theorem Continues.refl (s : Sink) : s.Continues s := ⟨.refl s, rfl, rfl⟩

theorem Continues.trans {s t u : Sink} (h : s.Continues t) (h' : t.Continues u) : s.Continues u :=
  ⟨h.grows.trans h'.grows, h'.capacity.trans h.capacity, h'.flushes.trans h.flushes⟩

theorem Continues.reliable {s t : Sink} (h : s.Continues t) (hs : s.Reliable) : t.Reliable :=
  ⟨h.capacity.trans hs.capacity, h.flushes.trans hs.flushes⟩

theorem continues_write (s : Sink) (bytes : ByteArray) : s.Continues (s.write bytes).2 := by
  unfold write
  split
  · exact ⟨⟨bytes, rfl⟩, rfl, rfl⟩
  · dsimp only
    split
    · exact ⟨⟨bytes, rfl⟩, rfl, rfl⟩
    · exact ⟨⟨_, rfl⟩, rfl, rfl⟩

theorem continues_printLine (s : Sink) (line : String) : s.Continues (s.printLine line).2 := by
  rw [printLine_of_write rfl]
  exact s.continues_write (lineBytes line)

end Abacus.Sink
