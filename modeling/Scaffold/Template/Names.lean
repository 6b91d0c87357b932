import Scaffold.Template.Basic

/-!
# The names that macros hold on to

A macro sees, besides its parameters, those names around it that its text uses without assigning
them first. `Macro.freeNames` finds them in one walk through the text in reading order.
-/

namespace Scaffold.Template

/-- What a walk has found: the names assigned in each open scope, and the free ones. -/
structure Walk where
  scopes : List (List String)
  free : List String
deriving Inhabited

namespace Walk

def start : Walk := ⟨[[]], []⟩

/-- Meets a use of a name. -/
def use (name : String) (w : Walk) : Walk :=
  if w.scopes.any (·.contains name) || w.free.contains name then w
  else { w with free := name :: w.free }

/-- Meets an assignment. -/
def assign (name : String) (w : Walk) : Walk :=
  match w.scopes with
  | s :: r => { w with scopes := (name :: s) :: r }
  | [] => { w with scopes := [[name]] }

/-- Walks through a scope of its own. -/
def enclosed (f : Walk → Walk) (w : Walk) : Walk :=
  let v := f { w with scopes := [] :: w.scopes }
  { v with scopes := v.scopes.drop 1 }

end Walk

mutual

def Expression.walk : Expression → Walk → Walk
  | .literal .., w => w
  | .name _ n, w => w.use n
  | .list _ items, w => walkItems items w
  | .dictionary _ es, w => walkEntries es w
  | .unary _ _ e, w => e.walk w
  | .binary _ l r, w => r.walk (l.walk w)
  | .and l r, w => r.walk (l.walk w)
  | .or l r, w => r.walk (l.walk w)
  | .conditional _ t y n, w => n.walk (y.walk (t.walk w))
  | .attribute e _, w => e.walk w
  | .item e k, w => k.walk (e.walk w)
  | .slice e a b c, w => c.walk (b.walk (a.walk (e.walk w)))
  | .filtered e l, w => l.walk (e.walk w)
  | .tested e l, w => l.walk (e.walk w)
  | .call _ e args, w => walkArguments args (e.walk w)

def walkItems : List Expression → Walk → Walk
  | [], w => w
  | e :: r, w => walkItems r (e.walk w)

def walkEntries : List Entry → Walk → Walk
  | [], w => w
  | .mk k v :: r, w => walkEntries r (v.walk (k.walk w))

def Link.walk : Link → Walk → Walk
  | .mk _ _ args, w => walkArguments args w

def walkArguments : List Argument → Walk → Walk
  | [], w => w
  | a :: r, w => walkArguments r (a.walk w)

def Argument.walk : Argument → Walk → Walk
  | .value e, w => e.walk w
  | .spread e, w => e.walk w
  | .named _ e, w => e.walk w
  | .spreadNamed e, w => e.walk w

end

def walkLinks (ls : List Link) (w : Walk) : Walk := ls.foldl (fun w l => l.walk w) w

mutual

def Target.walk : Target → Walk → Walk
  | .name n, w => w.assign n
  | .parts _ ts, w => walkTargets ts w
  | .field _ root _ _, w => w.use root

def walkTargets : List Target → Walk → Walk
  | [], w => w
  | t :: r, w => walkTargets r (t.walk w)

end

def walkBindings (bs : List Binding) (w : Walk) : Walk :=
  bs.foldl (fun w b => b.value.walk (b.target.walk w)) w

mutual

def Statement.walk : Statement → Walk → Walk
  | .text _, w => w
  | .emit _ e, w => e.walk w
  | .loop _ t items guards _ body otherwise, w =>
    (w.enclosed fun w => walkAll body ((walkItems guards (t.walk (items.walk w))).assign "loop")).enclosed
      (walkAll otherwise)
  | .branch _ t yes no, w => ((t.walk w).enclosed (walkAll yes)).enclosed (walkAll no)
  | .scope _ bs body, w => w.enclosed fun w => walkAll body (walkBindings bs w)
  | .assign t e, w => e.walk (t.walk w)
  | .capture _ t links body, w => walkLinks links ((t.walk w).enclosed (walkAll body))
  | .escaping e body, w => w.enclosed fun w => walkAll body (e.walk w)
  | .filtering _ links body, w => walkLinks links (w.enclosed (walkAll body))
  | .block _ _ body, w => w.enclosed fun w => walkAll body (w.assign "super")
  | .inherit _ e, w => e.walk w
  | .insert _ e _, w => e.walk w
  | .load _ e n, w => (e.walk w).assign n
  | .pick _ e ns, w => ns.foldl (fun w p => w.assign p.given) (e.walk w)
  | .define m, w => m.walk (w.assign m.name)
  | .callWith _ e args m, w => m.walk (walkArguments args (e.walk w))
  | .perform _ e args, w => walkArguments args (e.walk w)
  | .leave, w => w
  | .skip, w => w

def walkAll : List Statement → Walk → Walk
  | [], w => w
  | s :: r, w => walkAll r (s.walk w)

def Macro.walk : Macro → Walk → Walk
  | .mk _ _ ps ds body, w => walkAll body (walkItems ds (ps.foldl (fun w p => w.assign p) w))

end

/-- The names that a macro uses and does not assign itself. -/
def Macro.freeNames (m : Macro) : List String := (m.walk .start).free

end Scaffold.Template
