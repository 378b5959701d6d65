import EstreeLint.Proofs.Law.Declarations

/-!
The rules for statements under a law.
-/

namespace EstreeLint.Estree.Convert

set_option synthInstance.maxSize 1000

variable {env : Env} {L : Law env.file} {Γ : Facts env.file} {n m : Node}
  {t : NodeType} {f : Field} {r : Role} [hasked : Asked env L]

section Plain

variable [Entails Γ (.fact (Plain L n))]

instance : Gives env L Γ (block n) := .ofRead inferInstance

instance [IsTrue (isPlain t)] : Gives env L Γ (optionalExpression n t f r) := by
  unfold optionalExpression
  infer_instance

instance : Gives env L Γ (ifStatement n) := by unfold ifStatement; infer_instance

instance : Gives env L Γ (doStatement n) := by unfold doStatement; infer_instance

instance : Gives env L Γ (whileStatement n) := by unfold whileStatement; infer_instance

instance : Gives env L Γ (forStatement n) := by unfold forStatement; infer_instance

instance : Gives env L Γ (withStatement n) := by unfold withStatement; infer_instance

instance : Gives env L Γ (labeledStatement n) := by unfold labeledStatement; infer_instance

instance : Gives env L Γ (switchStatement n) := by unfold switchStatement; infer_instance

instance : Gives env L Γ (caseClause n) := by unfold caseClause; infer_instance

instance : Gives env L Γ (tryStatement n) := by unfold tryStatement; infer_instance

instance : Gives env L Γ (variableDeclarationList n) := by
  unfold variableDeclarationList declarationParts
  infer_instance

end Plain

/-! ### Variables -/

lemma boundName_gives (hn : n ∈ env.file.root.nodes) (hk : n.isForm .variableDeclaration = true)
    (hname : Quiet L n .name) (htype : Quiet L n .declaredType) : Gives env L Γ (boundName n) := by
  refine .given htype (name_gives hn (.inr hk) (fun m hm => L.inner_binds (hname m hm)) ?_)
  exact fun id hid => .bind inferInstance fun type => declare_gives hid

variable [Entails Γ (.fact (Plain L n))]

instance : Gives env L Γ (catchClause n) := by
  refine .from_fact (q := Plain L n) inferInstance fun hplain => ?_
  refine .bind (.mapM? _ fun v hv => ?_) fun param => inferInstance
  have hinner := hplain.part v (Below.mem_of_part? hv)
  refine boundName_gives (L.inner_spotted hinner).mem ?_ (fun m hm => L.inner_part hinner rfl hm)
    fun m hm => L.inner_part hinner rfl hm
  exact (hasked.sited n hplain.mem).role _ v (mem_partsOf_of_part? hv)

lemma variableDeclarator_gives (hk : n.kind = .form .variableDeclaration) :
    Gives env L Γ (variableDeclarator n) := by
  refine .from_fact (q := Plain L n) inferInstance fun hplain => ?_
  have hquiet (r : Role) : Quiet L n r := fun m hm => hplain.part m (Below.mem_of_partsOf hm)
  refine .bind (boundName_gives hplain.mem (by simp [Tree.isForm, hk]) (hquiet _) (hquiet _)) ?_
  exact fun id => inferInstance

end EstreeLint.Estree.Convert
