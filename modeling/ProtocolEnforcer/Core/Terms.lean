import ProtocolEnforcer.Core.Interleaving

/-!
# Programs on terms with each other

Programs that share a disk rely on each other for an invariant of the disk and for files of
their own, which no other of them writes to. Between two operations of a program nothing else is
certain: the others may have done anything that their terms allow. A program that abides by its
terms from where it stands does so whatever the others do, and so the invariant of any number of
programs that do holds at every moment of every interleaving, whichever operations fail.
-/

namespace ProtocolEnforcer

/-- The terms on which programs share a disk. -/
structure Terms (ι F : Type) where
  inv : Disk F → Prop
  /-- What a program may write to, -/
  may : ι → F → Prop
  /-- and what it may take to be as it has left it. -/
  own : ι → F → Prop
  apart : ∀ {i j f}, i ≠ j → may i f → ¬own j f

namespace Terms

variable {ι F ε α β : Type} (t : Terms ι F) (i : ι)

/-- What has become of the disk `d` by the next operation of a program. -/
structure Later (d d' : Disk F) : Prop where
  inv : t.inv d'
  own : ∀ f, t.own i f → d' f = d f

variable {t i} in
theorem Later.trans {d d' d'' : Disk F} (h : t.Later i d d') (h' : t.Later i d' d'') :
    t.Later i d d'' where
  inv := h'.inv
  own f hf := (h'.own f hf).trans (h.own f hf)

variable [DecidableEq F]

/-- The program keeps to its terms from the disk `d` on, and answers in `Q`. -/
def Abides (Q : α → Prop) : FileProg F α → Disk F → Prop
  | .done a, _ => Q a
  | .pathExists f next, d => ∀ d', t.Later i d d' → Abides Q (next (d' f).isSome) d'
  | .read f next, d => ∀ d', t.Later i d d' →
    (∀ bytes, d' f = some bytes → Abides Q (next (.ok bytes)) d') ∧
      ∀ m, Abides Q (next (.error m)) d'
  | .write w next, d => (∀ f ∈ w.files, t.may i f) ∧ ∀ d', t.Later i d d' →
    (w.possible d' = true →
      t.inv (FileWrite.apply d' w) ∧ Abides Q (next (.ok ())) (FileWrite.apply d' w)) ∧
      ∀ m written, t.inv (FileWrite.applyAll d' (w.partially written)) ∧
        Abides Q (next (.error m)) (FileWrite.applyAll d' (w.partially written))

variable {t i} {d d' : Disk F} {Q : α → Prop} {R : β → Prop} {x : FileProg F α}

namespace Abides

/-- What abides by its terms does so later. -/
theorem later (h : t.Abides i Q x d) (hlater : t.Later i d d') : t.Abides i Q x d' := by
  cases x with
  | done a => exact h
  | pathExists f next => exact fun d'' h'' => h d'' (hlater.trans h'')
  | read f next => exact fun d'' h'' => h d'' (hlater.trans h'')
  | write w next => exact ⟨h.1, fun d'' h'' => h.2 d'' (hlater.trans h'')⟩

theorem bind {g : α → FileProg F β} (hx : t.Abides i Q x d)
    (hg : ∀ a, Q a → ∀ d, t.Abides i R (g a) d) : t.Abides i R (x.bind g) d := by
  induction x generalizing d with
  | done a => exact hg a hx d
  | pathExists f next ih => exact fun d' hd => ih _ (hx d' hd)
  | read f next ih =>
    exact fun d' hd => ⟨fun bytes hf => ih _ ((hx d' hd).1 bytes hf), fun m => ih _ ((hx d' hd).2 m)⟩
  | write w next ih =>
    refine ⟨hx.1, fun d' hd => ⟨fun hposs => ?_, fun m written => ?_⟩⟩
    · exact ((hx.2 d' hd).1 hposs).imp_right (ih _)
    · exact ((hx.2 d' hd).2 m written).imp_right (ih _)

theorem conseq {Q' : α → Prop} (hx : t.Abides i Q x d) (h : ∀ a, Q a → Q' a) :
    t.Abides i Q' x d := by
  induction x generalizing d with
  | done a => exact h a hx
  | pathExists f next ih => exact fun d' hd => ih _ (hx d' hd)
  | read f next ih =>
    exact fun d' hd => ⟨fun bytes hf => ih _ ((hx d' hd).1 bytes hf), fun m => ih _ ((hx d' hd).2 m)⟩
  | write w next ih =>
    refine ⟨hx.1, fun d' hd => ⟨fun hposs => ?_, fun m written => ?_⟩⟩
    · exact ((hx.2 d' hd).1 hposs).imp_right (ih _)
    · exact ((hx.2 d' hd).2 m written).imp_right (ih _)

/-- **One operation** keeps the invariant, is on files that the program may write to, and what
is left of the program abides by its terms. -/
theorem next (h : t.Abides i Q x d) (hinv : t.inv d) (fault : Option FileFault) :
    t.inv (FileWrite.applyAll d (x.next d fault).2) ∧
      t.Abides i Q (x.next d fault).1 (FileWrite.applyAll d (x.next d fault).2) ∧
      ∀ w ∈ (x.next d fault).2, ∀ f ∈ w.files, t.may i f := by
  have hnow : t.Later i d d := ⟨hinv, fun _ _ => rfl⟩
  let Step (out : FileProg F α × List (FileWrite F)) : Prop :=
    t.inv (FileWrite.applyAll d out.2) ∧
      t.Abides i Q out.1 (FileWrite.applyAll d out.2) ∧ ∀ w ∈ out.2, ∀ f ∈ w.files, t.may i f
  have quiet {y : FileProg F α} (hy : t.Abides i Q y d) : Step (y, []) :=
    ⟨hinv, hy, fun _ hw => absurd hw List.not_mem_nil⟩
  cases x with
  | done a => exact quiet h
  | pathExists f next => exact quiet (h d hnow)
  | read f next =>
    exact FileProg.next_read (P := Step) (fun bytes hf => quiet ((h d hnow).1 bytes hf))
      fun m => quiet ((h d hnow).2 m)
  | write w next =>
    obtain ⟨hmay, hwrite⟩ := h
    refine FileProg.next_write (P := Step) (fun hposs => ?_) fun m written => ?_
    · obtain ⟨hinv', hrest⟩ := (hwrite d hnow).1 hposs
      exact ⟨hinv', hrest, fun w' hw' => List.mem_singleton.mp hw' ▸ hmay⟩
    · obtain ⟨hinv', hrest⟩ := (hwrite d hnow).2 m written
      refine ⟨hinv', hrest, fun w' hw' => ?_⟩
      rw [FileWrite.partially_files hw']
      exact hmay

/-- What has come to its answer has come to one of these. -/
theorem answer {a : α} (h : t.Abides i Q x d) (ha : x.answer? = some a) : Q a := by
  cases x with
  | done a' =>
    cases ha
    exact h
  | pathExists | read | write => cases ha

end Abides

/-- **Programs that run together** on their terms keep the invariant, whoever's turn it is and
whatever fails, and answer as each of them promises. -/
theorem run [DecidableEq ι] {s : Shared ι F α} {Q : ι → α → Prop}
    (h : ∀ i, t.Abides i (Q i) (s.progs i) s.disk) (hinv : t.inv s.disk) (turns : List (Turn ι)) :
    t.inv (turns.foldl Shared.step s).disk ∧
      ∀ i, t.Abides i (Q i) ((turns.foldl Shared.step s).progs i)
        (turns.foldl Shared.step s).disk := by
  induction turns generalizing s with
  | nil => exact ⟨hinv, h⟩
  | cons turn rest ih =>
    obtain ⟨hinv', hprog, hmay⟩ := (h turn.who).next hinv turn.fault
    refine ih (fun i => ?_) hinv'
    by_cases hi : i = turn.who
    · subst hi
      rwa [Shared.step_self]
    · rw [Shared.step_other hi]
      -- the others' own files are left alone
      refine (h i).later ⟨hinv', fun f hf => Shared.step_file fun w hw hmem => ?_⟩
      exact t.apart (Ne.symm hi) (hmay w hw f hmem) hf

/-! ## Programs that may fail -/

variable (t i) in
/-- The same of a program that may fail, from any disk; where it does not, it ends in `Q`. -/
def Keeps (Q : α → Prop) (x : FileTask F ε α) : Prop :=
  ∀ d, t.Abides i (fun r => ∀ a, r = .ok a → Q a) x.run d

namespace Keeps

open FileTask

variable {x : FileTask F ε α} {g : α → FileTask F ε β}

theorem pure {a : α} (h : Q a) : t.Keeps i Q (Pure.pure a : FileTask F ε α) := by
  rintro d _ ⟨⟩
  exact h

theorem throw {e : ε} : t.Keeps i Q (MonadExcept.throw e : FileTask F ε α) := by
  rintro d _ ⟨⟩

theorem bind (hx : t.Keeps i Q x) (hg : ∀ a, Q a → t.Keeps i R (g a)) :
    t.Keeps i R (x >>= g) := by
  refine fun d => Abides.bind (hx d) fun r hr => ?_
  cases r with
  | ok a => exact hg a (hr a rfl)
  | error e => rintro d _ ⟨⟩

theorem conseq {Q' : α → Prop} (hx : t.Keeps i Q x) (h : ∀ a, Q a → Q' a) : t.Keeps i Q' x :=
  fun d => (hx d).conseq fun _ hr a ha => h a (hr a ha)

theorem map {k : α → β} (hx : t.Keeps i (fun a => R (k a)) x) : t.Keeps i R (k <$> x) :=
  hx.bind fun _ h => .pure h

theorem lift {r : Except ε α} (h : ∀ a, r = .ok a → Q a) :
    t.Keeps i Q (FileTask.lift r : FileTask F ε α) := fun _ => h

theorem ensure {c : Bool} {e : ε} :
    t.Keeps i (fun _ => c = true) (FileTask.ensure c e : FileTask F ε Unit) := by
  refine .lift fun _ h => ?_
  cases c with
  | true => rfl
  | false => cases h

theorem onlyIf {c : Bool} {y : FileTask F ε Unit} {Q : Unit → Prop}
    (hy : c = true → t.Keeps i Q y) (hskip : c = false → Q ()) :
    t.Keeps i Q (FileTask.onlyIf c y) := by
  cases c with
  | true => exact hy rfl
  | false => exact .pure (hskip rfl)

theorem pathExists {f : F} {Q : Bool → Prop} (h : ∀ d, t.inv d → Q (d f).isSome) :
    t.Keeps i Q (FileTask.pathExists f : FileTask F ε Bool) := by
  rintro d d' hd _ ⟨⟩
  exact h d' hd.inv

theorem read {f : F} {wrap : String → ε} {Q : Bytes → Prop}
    (h : ∀ d bytes, t.inv d → d f = some bytes → Q bytes) :
    t.Keeps i Q (FileTask.read f wrap : FileTask F ε Bytes) := by
  refine fun d d' hd => ⟨fun bytes hf => ?_, fun m => ?_⟩
  · rintro _ ⟨⟩
    exact h d' bytes hd.inv hf
  · rintro _ ⟨⟩

/-- A write that keeps the invariant, done or half done. -/
theorem write {w : FileWrite F} {wrap : String → ε} (may : ∀ f ∈ w.files, t.may i f)
    (done : ∀ d, t.inv d → w.possible d = true → t.inv (FileWrite.apply d w))
    (half : ∀ d written, t.inv d → t.inv (FileWrite.applyAll d (w.partially written))) :
    t.Keeps i (fun _ => True) (FileTask.write w wrap : FileTask F ε Unit) :=
  fun _ => ⟨may, fun d' hd => ⟨fun hposs => ⟨done d' hd.inv hposs, fun _ _ => trivial⟩,
    fun _ written => ⟨half d' written hd.inv, fun _ _ => trivial⟩⟩⟩

theorem tryCatch {k : ε → FileTask F ε α} (hx : t.Keeps i Q x) (hk : ∀ e, t.Keeps i Q (k e)) :
    t.Keeps i Q (MonadExcept.tryCatch x k) := by
  refine fun d => Abides.bind (hx d) fun r hr => ?_
  cases r with
  | ok a => exact fun _ => hr
  | error e => exact hk e

end Keeps

end Terms

end ProtocolEnforcer
