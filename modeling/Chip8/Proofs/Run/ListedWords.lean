import Chip8.Proofs.Machine.Contents
import Chip8.Proofs.Run.Accounting
import Chip8.Web.Endpoint

/-!
# Listed words and executed words

A word in a trace is the one that memory held at its row's address, and memory holds what it held at
power-on with the bytes stored over it by the rows before. Where no row before has stored any, the word
is that of the program, and a row at an address of the listing agrees with its line. The main statement is
`trace_matches_listing`.
-/

namespace Chip8

/-! ### Lines of a listing -/

namespace Listing

theorem getElem?_linesFrom (address : Nat) {image : List Byte} {k : Nat} (hk : 2 * k + 1 < image.length) :
    (linesFrom address image)[k]? = some
      ⟨address + 2 * k, .inl (Word.ofBytes (image.getD (2 * k) 0) (image.getD (2 * k + 1) 0))⟩ := by
  fun_induction linesFrom address image generalizing k with
  | case1 => simp at hk
  | case2 => simp at hk
  | case3 address high low rest ih =>
    cases k with
    | zero => rfl
    | succ k =>
      have hrest : 2 * k + 1 < rest.length := by
        simp only [List.length_cons] at hk
        omega
      have haddress : address + 2 + 2 * k = address + 2 * (k + 1) := by omega
      rw [List.getElem?_cons_succ, ih hrest, haddress]
      rfl

end Listing

namespace Run

/-! ### Memory along a trace -/

/-- The contents with the bytes of a row stored over them. The operands of the row's word are those that
the machine had before the row's step. -/
def TraceRow.storedOver (m : Machine Twister) (c : Contents) (row : TraceRow) : Contents :=
  let before := (m.cycles (row.step - 1)).state
  c.stored before.index.val (row.word.storedBytes before)

def contentsBehind (m : Machine Twister) (rows : List TraceRow) (start : Contents) : Contents :=
  rows.foldl (TraceRow.storedOver m) start

variable {o : Options} {m : Machine Twister} {start : Contents}

theorem contentsBehind_of_not_stores {rows : List TraceRow} (h : ∀ row ∈ rows, ¬ row.word.Stores) :
    contentsBehind m rows start = start := by
  induction rows with
  | nil => rfl
  | cons row rest ih =>
    have hrow : row.storedOver m start = start := by
      simp only [TraceRow.storedOver, Word.storedBytes_of_not_stores (h row List.mem_cons_self),
        Contents.stored_nil]
    rw [contentsBehind, List.foldl_cons, hrow]
    exact ih fun later hl => h later (List.mem_cons_of_mem row hl)

-- by induction on the number of steps: a step without a row has failed and stored nothing
theorem holds_cycles (o : Options) (hset : m.instructions ≠ .idle) (h : m.state.memory.Holds start)
    (n : Nat) : (m.cycles n).state.memory.Holds
      (contentsBehind m ((List.range n).filterMap (o.callRow m)) start) := by
  induction n with
  | zero => exact h
  | succ n ih =>
    have hstep := Machine.holds_step (Machine.instructions_cycles_ne hset n) ih
    have hcall : (m.cycles n).step.1 = m.call n := rfl
    rw [List.range_succ, List.filterMap_append, contentsBehind, List.foldl_append]
    rw [hcall] at hstep
    cases hc : m.call n with
    | error r =>
      rw [hc] at hstep
      rw [List.filterMap_cons_none (callRow_of_error hc)]
      exact hstep
    | ok w =>
      obtain ⟨row, hrow⟩ := exists_callRow (o := o) hc
      obtain ⟨hw, hnum, -⟩ := of_callRow hrow
      rw [hw] at hstep
      rw [List.filterMap_cons_some hrow]
      simp only [List.filterMap_nil, List.foldl_cons, List.foldl_nil, TraceRow.storedOver, hnum,
        Nat.add_sub_cancel]
      exact hstep

/-- The rows before a row are those of the steps before its step. -/
theorem getElem?_filterMap_range {α : Type} {f : Nat → Option α} {n i : Nat} {a : α}
    (h : ((List.range n).filterMap f)[i]? = some a) :
    ∃ j < n, f j = some a ∧ ((List.range n).filterMap f).take i = (List.range j).filterMap f := by
  induction n with
  | zero => simp at h
  | succ n ih =>
    rw [List.range_succ, List.filterMap_append] at h ⊢
    by_cases hi : i < ((List.range n).filterMap f).length
    · rw [List.getElem?_append_left hi] at h
      obtain ⟨j, hj, hf, htake⟩ := ih h
      refine ⟨j, Nat.lt_succ_of_lt hj, hf, ?_⟩
      rw [List.take_append_of_le_length (Nat.le_of_lt hi), htake]
    · rw [List.getElem?_append_right (Nat.not_lt.1 hi)] at h
      cases hf : f n with
      | none =>
        rw [List.filterMap_cons_none hf] at h
        cases h
      | some b =>
        rw [List.filterMap_cons_some hf] at h
        obtain ⟨h0, hb⟩ : i - ((List.range n).filterMap f).length = 0 ∧ b = a := by
          cases hk : i - ((List.range n).filterMap f).length with
          | zero =>
            rw [hk] at h
            cases h
            exact ⟨rfl, rfl⟩
          | succ k =>
            rw [hk] at h
            cases h
        subst hb
        refine ⟨n, Nat.lt_succ_self n, hf, ?_⟩
        have hlen : i = ((List.range n).filterMap f).length := by omega
        rw [hlen, List.take_left]

/-- The word of a row is the one at the row's address behind the rows before it. -/
theorem word_of_callRow (hset : m.instructions ≠ .idle) (h : m.state.memory.Holds start) {i : Nat}
    {row : TraceRow} (hrow : o.callRow m i = some row) :
    row.word.toNat =
      (contentsBehind m ((List.range i).filterMap (o.callRow m)) start).wordAt row.address := by
  obtain ⟨hw, -, haddress⟩ := of_callRow hrow
  have hholds := holds_cycles o hset h i
  have ho := (m.cycles i).step_outcome
  have hcall : (m.cycles i).step.1 = .ok row.word := hw
  generalize (m.cycles i).step = result at ho hcall
  cases ho with
  | unfetched | faulted => cases hcall
  | executed hp hf =>
    have hnext : (m.cycles i).nextWord = row.word := Except.ok.inj hcall
    have hhigh := hholds (m.cycles i).state.pc.val (Nat.lt_of_succ_lt hp)
    have hlow := hholds ((m.cycles i).state.pc.val + 1) hp
    rw [← hnext, Machine.toNat_nextWord, haddress, Contents.wordAt, hhigh, hlow]

theorem line_of_word {image : List Byte} {k : Nat} {w : Word} (hk : 2 * k + 1 < image.length)
    (h : w.toNat = (Contents.powerOn image).wordAt (0x200 + 2 * k)) :
    (Listing.lines image)[k]? = some ⟨0x200 + 2 * k, .inl w⟩ := by
  have hw : Word.ofBytes (image.getD (2 * k) 0) (image.getD (2 * k + 1) 0) = w := by
    apply BitVec.eq_of_toNat_eq
    rw [Word.toNat_ofBytes, h, Contents.wordAt_powerOn hk]
  rw [Listing.lines, Listing.getElem?_linesFrom programStart hk, hw]

/-! ### The main statement -/

/-- The word of every row is the one at the row's address in what memory held at power-on, with the bytes
stored over it by the rows before. If none of these has stored any, it is the word at power-on, and a row
at an address of the listing shows what the listing's line shows. -/
theorem trace_matches_listing (f : Web.Framework) (unseeded : Twister) {body : Web.Value}
    {text : String} {image : List Byte} (hbody : f.receiveListing body = .valid text)
    (himage : Web.decodeProgram text = .ok image) {o : Options}
    (hpolicy : o.unknownInstruction = "halt" ∨ o.unknownInstruction = "skip")
    (hkeys : ∀ key ∈ o.keysDown, 0 ≤ key ∧ key ≤ 15) (htrace : o.trace = true) :
    ∃ p m lines out, p.bytes = image ∧ o.Builds unseeded p m ∧
      f.listingEndpoint body = .ok lines ∧ run image o unseeded = .ok out ∧
      ∀ i row, out.result.trace[i]? = some row →
        let before := out.result.trace.take i
        row.word.toNat =
          (contentsBehind m before (Contents.powerOn image)).wordAt row.address ∧
        ((∀ earlier ∈ before, ¬ earlier.word.Stores) →
          row.word.toNat = (Contents.powerOn image).wordAt row.address ∧
          ∀ k, row.address = 0x200 + 2 * k → 2 * k + 1 < image.length → ∃ line,
            lines[k]? = some line ∧ line.address = row.address ∧ line.value = row.word.toNat ∧
              line.text = row.text) := by
  have hsize : image.length ≤ maxProgramSize := by
    unfold Web.decodeProgram at himage
    split at himage
    · cases himage
    · split at himage
      · cases himage
        assumption
      · cases himage
  let p : Program := ⟨image, hsize⟩
  obtain ⟨m, hb⟩ : ∃ m, o.Builds unseeded p m := ⟨_, Options.builds_iff.2 ⟨hpolicy, hkeys, rfl⟩⟩
  obtain ⟨out, n, hrun, -, hres⟩ := exists_run_of_builds hb
  have hlines : f.listingEndpoint body = .ok (Listing.lines image) := by
    simp only [Web.Framework.listingEndpoint, Web.listProgram, hbody, himage]
  have hrows : out.result.trace = (List.range n).filterMap (o.callRow m) := by
    rw [hres, trace_result]
    simp only [htrace, if_true]
  have hstart : m.state.memory.Holds (Contents.powerOn image) := by
    rw [hb.state_eq]
    exact State.holds_image p
  refine ⟨p, m, _, out, rfl, hb, hlines, hrun, ?_⟩
  intro i row hi before
  rw [hrows] at hi
  obtain ⟨j, -, hrow, htake⟩ := getElem?_filterMap_range hi
  have hbefore : before = (List.range j).filterMap (o.callRow m) := by rw [← htake, ← hrows]
  have hword := word_of_callRow hb.instructions_ne hstart hrow
  rw [hbefore]
  refine ⟨hword, fun hstores => ?_⟩
  rw [contentsBehind_of_not_stores hstores] at hword
  refine ⟨hword, fun k haddress hk => ?_⟩
  rw [haddress] at hword ⊢
  exact ⟨_, line_of_word hk hword, rfl, rfl, rfl⟩

/-- A program that stores a jump over the zeros at its end. The row of the storing word still shows its
line, the row of the jump shows what was stored. -/
theorem trace_matches_listing_overwritten :
    let body : Web.Value := .object [("program", .text "6012 6108 A208 F155 0000")]
    let image : List Byte := [0x60, 0x12, 0x61, 0x08, 0xA2, 0x08, 0xF1, 0x55, 0x00, 0x00]
    let o : Options := { randomSeed := some 7, trace := true }
    Web.decodeProgram "6012 6108 A208 F155 0000" = .ok image ∧ ∃ m lines out,
      Web.builtIn.listingEndpoint body = .ok lines ∧ run image o = .ok out ∧
      out.result.trace.map TraceRow.word = [0x6012#16, 0x6108#16, 0xA208#16, 0xF155#16, 0x1208#16] ∧
      (∃ row line, out.result.trace[3]? = some row ∧ lines[3]? = some line ∧
        line.address = row.address ∧ line.value = row.word.toNat ∧ line.text = row.text) ∧
      ∃ row, out.result.trace[4]? = some row ∧ row.word = 0x1208#16 ∧
        row.word.toNat =
          (contentsBehind m (out.result.trace.take 4) (Contents.powerOn image)).wordAt row.address ∧
        (Contents.powerOn image).wordAt row.address = 0 := by
  intro body image o
  have hbody : Web.builtIn.receiveListing body = .valid "6012 6108 A208 F155 0000" := rfl
  have himage : Web.decodeProgram "6012 6108 A208 F155 0000" = .ok image := rfl
  obtain ⟨p, m, lines, out, -, -, hlines, hrun, hrows⟩ :=
    trace_matches_listing (o := o) Web.builtIn (Twister.seeded 0) hbody himage (.inl rfl) (by decide) rfl
  obtain ⟨out', hrun', htrace⟩ : ∃ out, run image o = .ok out ∧ out.result.trace =
      [⟨1, 0x200, 0x6012#16, 0, none⟩, ⟨2, 0x202, 0x6108#16, 0, none⟩, ⟨3, 0x204, 0xA208#16, 0x208, none⟩,
        ⟨4, 0x206, 0xF155#16, 0x208, none⟩, ⟨5, 0x208, 0x1208#16, 0x208, none⟩] :=
    exists_run_of_toOption Result.trace (by decide +kernel)
  cases hrun.symm.trans hrun'
  refine ⟨himage, m, lines, out, hlines, hrun, by rw [htrace]; rfl, ?_, ?_⟩
  · have hrow := hrows 3 ⟨4, 0x206, 0xF155#16, 0x208, none⟩ (by rw [htrace]; rfl)
    obtain ⟨-, hlisted⟩ := hrow
    have hstores : ∀ earlier ∈ out.result.trace.take 3, ¬ earlier.word.Stores := by
      rw [htrace]
      decide
    obtain ⟨line, hline, hshows⟩ := (hlisted hstores).2 3 rfl (by decide)
    exact ⟨_, line, by rw [htrace]; rfl, hline, hshows⟩
  · have hrow := hrows 4 ⟨5, 0x208, 0x1208#16, 0x208, none⟩ (by rw [htrace]; rfl)
    exact ⟨_, by rw [htrace]; rfl, rfl, hrow.1, by decide +kernel⟩

end Run

end Chip8
