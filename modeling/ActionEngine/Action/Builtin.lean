import ActionEngine.Action.Basic

/-!
# The built-in actions

The baseline that every registry starts from. Custom definitions replace an action
by its id or follow after the built-in ones.
-/

namespace ActionEngine.Builtin

/-- A prompt of several lines. -/
def paragraph : List String → String
  | [] => ""
  | [line] => line
  | line :: rest => line ++ "\n" ++ paragraph rest

/-! ### Rewriting -/

def improveClarity : Action where
  category := .known .rewriting
  name := "improve_clarity"
  title := "Improve clarity"
  prompt := paragraph
    ["Rewrite the following text to improve clarity while preserving the meaning.",
     "Use active voice, shorter sentences, and precise word choices.",
     "Output only the rewritten text, no explanations."]
  icon := some "text.magnifyingglass"

def makeConcise : Action where
  category := .known .rewriting
  name := "make_concise"
  title := "Make concise"
  prompt := paragraph
    ["Rewrite the following text to be more concise.",
     "Remove redundancy, unnecessary qualifiers, and filler words.",
     "Preserve the core meaning. Output only the rewritten text."]
  icon := some "arrow.down.right.and.arrow.up.left"

def makeFormal : Action where
  category := .known .rewriting
  name := "make_formal"
  title := "Make formal"
  prompt := paragraph
    ["Rewrite the following text in a more formal, academic tone.",
     "Use appropriate scholarly language and passive voice where suitable.",
     "Output only the rewritten text."]
  icon := some "graduationcap"

def expandDetail : Action where
  category := .known .rewriting
  name := "expand_detail"
  title := "Expand with detail"
  prompt := paragraph
    ["Expand the following text by adding more detail and explanation.",
     "Develop the ideas more fully while maintaining the original argument.",
     "Output only the expanded text."]
  icon := some "arrow.up.left.and.arrow.down.right"

def fixGrammar : Action where
  category := .known .rewriting
  name := "fix_grammar"
  title := "Fix grammar & spelling"
  prompt := paragraph
    ["Fix any grammar, spelling, or punctuation errors in the following text.",
     "Do not change the meaning or style. Output only the corrected text."]
  icon := some "textformat.abc"

/-! ### Citations -/

def findSupporting : Action where
  category := .known .citations
  name := "find_supporting"
  title := "Find supporting citation"
  external := true
  icon := some "magnifyingglass"

def checkNeeded : Action where
  category := .known .citations
  name := "check_needed"
  title := "Check citation needed"
  prompt := paragraph
    ["Analyze the following text and identify any claims that should be supported by " ++
       "citations.",
     "For each claim, explain why a citation would strengthen it and suggest what type of " ++
       "source would be appropriate.",
     "Format as a numbered list."]
  icon := some "exclamationmark.triangle"

def formatCitation : Action where
  category := .known .citations
  name := "format"
  title := "Format citation"
  prompt := paragraph
    ["The following text contains citation information (author names, titles, years, etc.).",
     "Convert it into a properly formatted citation in a standard academic format.",
     "If the format is ambiguous, use APA style. Output only the formatted citation."]
  icon := some "text.quote"

/-! ### Explanation -/

def simplifyGeneral : Action where
  category := .known .explanation
  name := "simplify_general"
  title := "Simplify for general audience"
  prompt := paragraph
    ["Rewrite the following technical or academic text for a general audience.",
     "Replace jargon with plain language, add brief explanations of complex concepts.",
     "Maintain accuracy while improving accessibility. Output only the rewritten text."]
  icon := some "person.2"

def addTechnical : Action where
  category := .known .explanation
  name := "add_technical"
  title := "Add technical detail"
  prompt := paragraph
    ["Expand the following text by adding more technical detail and precision.",
     "Include relevant terminology, specific mechanisms, or quantitative information.",
     "Output only the expanded text."]
  icon := some "gearshape.2"

def defineTerms : Action where
  category := .known .explanation
  name := "define_terms"
  title := "Define terms"
  prompt := paragraph
    ["Identify technical terms, acronyms, or specialized vocabulary in the following text.",
     "Provide brief, clear definitions for each term.",
     "Format as a list with the term followed by its definition."]
  icon := some "character.book.closed"

/-! ### Structure -/

def toBullets : Action where
  category := .known .structuring
  name := "to_bullets"
  title := "Convert to bullet points"
  prompt := paragraph
    ["Convert the following prose into a clear, well-organized bullet point list.",
     "Each bullet should capture one distinct idea. Use sub-bullets for related details.",
     "Output only the bullet points, using - for bullets and indentation for hierarchy."]
  icon := some "list.bullet"

def toParagraph : Action where
  category := .known .structuring
  name := "to_paragraph"
  title := "Convert to paragraph"
  prompt := paragraph
    ["Convert the following bullet points or list into flowing prose paragraphs.",
     "Add appropriate transitions between ideas. Maintain all the information.",
     "Output only the paragraph text."]
  icon := some "text.alignleft"

def addTransition : Action where
  category := .known .structuring
  name := "add_transition"
  title := "Add transition sentence"
  prompt := paragraph
    ["Write a transition sentence that would smoothly connect the ideas in the following " ++
       "text.",
     "The transition should bridge between the preceding and following content.",
     "Output only the transition sentence."]
  icon := some "arrow.right"

def suggestHeading : Action where
  category := .known .structuring
  name := "suggest_heading"
  title := "Suggest section heading"
  prompt := paragraph
    ["Based on the following text, suggest 3 appropriate section headings that accurately " ++
       "describe the content.",
     "Headings should be concise (2-6 words) and descriptive.",
     "Format as a numbered list."]
  icon := some "number"

/-! ### Review -/

def checkFlow : Action where
  category := .known .review
  name := "check_flow"
  title := "Check logical flow"
  prompt := paragraph
    ["Analyze the logical flow and coherence of the following text.",
     "Identify any gaps in reasoning, unclear transitions, or logical jumps.",
     "Provide specific suggestions for improvement."]
  icon := some "arrow.triangle.branch"

def weakArguments : Action where
  category := .known .review
  name := "weak_arguments"
  title := "Identify weak arguments"
  prompt := paragraph
    ["Analyze the arguments in the following text.",
     "Identify any weak points, unsupported claims, or potential counterarguments.",
     "For each issue, suggest how to strengthen the argument."]
  icon := some "exclamationmark.bubble"

def suggestImprovements : Action where
  category := .known .review
  name := "suggest_improvements"
  title := "Suggest improvements"
  prompt := paragraph
    ["Review the following text and provide 3-5 specific suggestions for improvement.",
     "Consider clarity, structure, argument strength, and academic style.",
     "Format as a numbered list with brief explanations."]
  icon := some "lightbulb.max"

/-- All built-in actions in their order. -/
def actions : List Action :=
  [improveClarity, makeConcise, makeFormal, expandDetail, fixGrammar, findSupporting,
   checkNeeded, formatCitation, simplifyGeneral, addTechnical, defineTerms, toBullets,
   toParagraph, addTransition, suggestHeading, checkFlow, weakArguments, suggestImprovements]

def supportingCitation : String := "citations.find_supporting"

end ActionEngine.Builtin
