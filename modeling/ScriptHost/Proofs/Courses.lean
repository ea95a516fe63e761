import ScriptHost.Proofs.SessionSteps

/-!
# Courses of a bridge

As far as the end of a window is concerned, only a few things can be done to a bridge: a fragment is
posted or taken from the queue, the loop is taken over, closed or left, the window is marked as
running or as idle, or one of them is terminated. Everything else leaves the window, the queue and
the control of the loop alone. So whatever the users of a session do is a course of such acts, and a
script goes along a course that takes no fragment from the queue.
-/

namespace ScriptHost
namespace Host

open Script Machine

/-! ## Acts -/

/-- What is done at once, with the fragments that are taken from the queue by it. -/
inductive Bridge.Act : Bridge → List Fragment → Bridge → Prop
  | aside {b b'} : b'.window.phase = b.window.phase → b.native.Aside b'.native → Act b [] b'
  | post {b f} : Act b [] (Bridge.postNative f b).2
  | take {b f b'} : b.takeQueued? = some (f, b') → Act b [f] b'
  -- the loop
  | takeLoop {b} : Act b [] b.takeLoop.2
  | close {b} : Act b [] { b with native := b.native.update EventLoop.close }
  | leave {b} : Act b [] { b with native := b.native.update EventLoop.leave }
  | terminateNative {b} : Act b [] { b with native := b.native.terminate }
  -- the window
  | mark {b} : Act b [] b.markWindow.2
  | unmark {b} : Act b [] b.unmarkWindow
  | terminate {b} : Act b [] (Request.terminate b).2

/-- Any number of acts with the fragments that are taken from the queue, in order. -/
inductive Bridge.Course (b : Bridge) : List Fragment → Bridge → Prop
  | nil : Course b [] b
  | snoc {fs b₁ gs b₂} : Course b fs b₁ → Bridge.Act b₁ gs b₂ → Course b (fs ++ gs) b₂

namespace Bridge

variable {b b₁ b₂ : Bridge} {fs gs : List Fragment}

/-- One course after the other. -/
theorem Course.trans (h : b.Course fs b₁) (h' : b₁.Course gs b₂) : b.Course (fs ++ gs) b₂ := by
  induction h' with
  | nil => rwa [List.append_nil]
  | snoc _ hact ih =>
      rw [← List.append_assoc]
      exact ih.snoc hact

theorem Act.course (h : b.Act fs b₁) : b.Course fs b₁ :=
  .snoc .nil h

/-- The fragments of the queue stay where they are. -/
abbrev Silent (b b' : Bridge) : Prop :=
  b.Course [] b'

/-- Nothing that matters has happened. -/
theorem Course.of_same (hwindow : b₁.window.phase = b.window.phase)
    (hnative : b₁.native = b.native) : b.Course [] b₁ :=
  Act.course (.aside hwindow (hnative ▸ Native.Aside.refl _))

/-- What is neither the business of the window nor of the queue. -/
theorem Course.of_business (hbusiness : b₁.business = b.business)
    (hnative : b.native.Aside b₁.native) : b.Course [] b₁ :=
  Act.course (.aside (congrArg Prod.fst hbusiness) hnative)

/-! ## Whatever is done is a course -/

/-- A relation that holds along silent courses at least. -/
structure Admits (R : Bridge → Bridge → Prop) : Prop where
  silent : ∀ {b b'}, b.Silent b' → R b b'
  trans : ∀ {b b₁ b₂}, R b b₁ → R b₁ b₂ → R b b₂

/-- Some course leads from one bridge to the other. -/
def Leads (b b' : Bridge) : Prop :=
  ∃ fs, b.Course fs b'

/-- A relation that has every act has whatever scripts and callers do. -/
theorem Admits.allows {R : Bridge → Bridge → Prop} (hR : Admits R) : Allows R where
  trans := hR.trans
  elsewhere hwindow hnative := hR.silent (.of_same hwindow hnative)
  bindNative b x name :=
    hR.silent (.of_business (b.business_bindNative x name) (b.aside_bindNative x name))
  unbindNative b name :=
    hR.silent (.of_business (b.business_unbindNative name) (b.aside_unbindNative name))
  postNative _ _ := hR.silent Act.post.course
  resolveNative b id result :=
    hR.silent (.of_business (b.quiet_resolveNative id result).business
      (b.aside_resolveNative id result))
  terminateNative _ := hR.silent Act.terminateNative.course
  mark _ := hR.silent Act.mark.course
  unmark _ := hR.silent Act.unmark.course
  terminate _ := hR.silent Act.terminate.course

/-- Scripts take nothing from the queue. -/
theorem allows_silent : Allows Silent :=
  Admits.allows ⟨id, .trans⟩

theorem admits_leads : Admits Leads := by
  refine ⟨fun h => ⟨[], h⟩, ?_⟩
  rintro b b₁ b₂ ⟨fs, h⟩ ⟨gs, h'⟩
  exact ⟨fs ++ gs, h.trans h'⟩

theorem allowsCalls_leads : AllowsCalls Leads where
  toAllows := admits_leads.allows
  -- that a result is expected or taken does not concern the queue
  expectResult b id := ⟨[], .of_business rfl (b.aside_expectResult id)⟩
  takeResult b id := ⟨[], .of_business (b.quiet_takeResult id).business (b.aside_takeResult id)⟩

theorem allowsLoops_leads : AllowsLoops Leads where
  toAllows := admits_leads.allows
  takeLoop _ := ⟨[], Act.takeLoop.course⟩
  takeQueued h := ⟨_, (Act.take h).course⟩
  close _ := ⟨[], Act.close.course⟩
  leave _ := ⟨[], Act.leave.course⟩

/-- A run that begins takes nothing from the queue yet. -/
theorem silent_startWindow (b : Bridge) : b.Silent b.startWindow.2 := by
  have hmark : b.Silent (b.markWindow.2.note .loopStarted) :=
    Act.mark.course.trans (.of_same rfl rfl)
  exact hmark.trans Act.takeLoop.course

/-- Native functions take nothing from the queue. -/
theorem path_silent : Natives.Path Builtin.run Silent :=
  allows_silent.path

end Bridge

/-- An operation that is over has gone along a course. -/
theorem comes_leads (budget : Nat) (op : Operation) : Comes Bridge.Leads (op.perform budget) :=
  comes_perform Bridge.allowsCalls_leads Bridge.allowsLoops_leads budget op

end Host
end ScriptHost
