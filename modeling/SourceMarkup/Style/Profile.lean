import SourceMarkup.Style.Scheme

/-!
# Built-in style schemes

The default colours of the development environments.
-/

namespace SourceMarkup

namespace StyleScheme

open StyleRule

def idea : StyleScheme :=
  (empty .idea).registerAll
    [(.lineComment, [color "#808080", italic]),
      (.blockComment, [color "#808080", italic]),
      (.javadoc, [color "#808080", italic]),
      (.javadocTag, [color "#808080", italic]),
      (.javadocTag, [bold, underline]),
      (.keyword, [color "#000080", bold]),
      (.stringLiteral, [color "#008000", bold]),
      (.charLiteral, [color "#008000", bold]),
      (.number, [color "#0000ff"]),
      (.annotationName, [color "#808000"]),
      (.xmlTag, [color "#000080", bold]),
      (.xmlAttribute, [color "#0000ff", bold]),
      (.xmlAttributeValue, [color "#008000", bold]),
      (.xmlComment, [color "#808080", italic]),
      (.xmlCdata, [color "#008000"]),
      (.xmlProlog, [color "#000080"]),
      (.xmlEntity, [color "#0000ff"])]

def eclipse : StyleScheme :=
  (empty .eclipse).registerAll
    [(.lineComment, [color "#3f7f5f"]),
      (.blockComment, [color "#3f7f5f"]),
      (.javadoc, [color "#3f5fbf"]),
      (.javadocTag, [color "#7f9fc5", underline, bold]),
      (.keyword, [color "#7f0058", bold]),
      (.stringLiteral, [color "#2a00ff"]),
      (.charLiteral, [color "#2a00ff"]),
      (.annotationName, [color "#646464"]),
      (.xmlTag, [color "#3f7f7f"]),
      (.xmlAttribute, [color "#7f007f"]),
      (.xmlAttributeValue, [color "#2a00ff", italic]),
      (.xmlComment, [color "#3f5fbf"]),
      (.xmlCdata, [background "#e2ffe2"]),
      (.xmlProlog, [color "#3f7f7f"]),
      (.xmlEntity, [color "#2a00ff"])]

def netbeans : StyleScheme :=
  ((empty .netbeans).registerAll
    ((TokenKind.all.filter TokenKind.isComment).map fun kind =>
      (kind, [color "#969696"]))).registerAll
    [(.javadocTag, [bold]),
      (.stringLiteral, [color "#ce7b00"]),
      (.charLiteral, [color "#ce7b00"]),
      (.keyword, [color "#0000ee"]),
      (.annotationName, [color "#808080"]),
      (.xmlTag, [color "#0000e6"]),
      (.xmlAttribute, [color "#009900"]),
      (.xmlAttributeValue, [color "#ce7b00"]),
      (.xmlComment, [color "#969696"]),
      (.xmlCdata, [color "#969696"]),
      (.xmlProlog, [color "#969696"]),
      (.xmlEntity, [color "#b20000"])]

def ofProfile : Profile → StyleScheme
  | .idea => idea
  | .eclipse => eclipse
  | .netbeans => netbeans

end StyleScheme

end SourceMarkup
