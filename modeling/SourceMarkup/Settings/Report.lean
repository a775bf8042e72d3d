import SourceMarkup.Settings.Json
import SourceMarkup.Settings.Widget

/-!
# The settings report

The report of settings as JSON: the current value of each setting, all its
values, and its widget on the page.
-/

namespace SourceMarkup

namespace Widget

def toJson (widget : Widget) : Json :=
  .object
    [("selector".toList,
        .object
          [("current_icon".toList, .string widget.selector.currentIcon),
            ("current_alt".toList, .string widget.selector.currentAlt),
            ("hidden_value".toList, .string widget.selector.hiddenValue)]),
      ("arrow".toList,
        .object
          [("display".toList, .string widget.view.display),
            ("image".toList, .string widget.view.image)])]

end Widget

namespace Settings

def report (settings : Settings) : Json :=
  .object
    [("current".toList,
        .object (settings.current.map fun (param, value) => (param, .string value))),
      ("all".toList,
        .object (available.map fun (param, values) =>
          (param, .array (values.map .string)))),
      ("widgets".toList,
        .object ((Widget.ofSettings settings).map fun (param, widget) =>
          (param, widget.toJson)))]

end Settings

end SourceMarkup
